import FragmentLint.Proofs.Editor.Action
import FragmentLint.Proofs.Fix
import FragmentLint.Proofs.Grammar.Concrete
import FragmentLint.Proofs.Markup.Soundness

/-!
Contract: whatever is cut out of an accepted source is there.

The tree of the source is sound, so that all its spans are cut out at boundaries. From there on the
offsets of a check are those of its nodes: reports, edits, diagnostics and quick fixes ask for
nothing else. Main statement: `sound_and_sliceable`.
-/

namespace FragmentLint

/-- Whether an edit replaces a span of a source by nothing but a piece of what stands there, or by
an empty fragment. -/
def Edit.Keeps (source : Text) (span : Span) (edit : Edit) : Prop :=
  edit.range = span
    ∧ (edit.replacement = "<></>".toList
      ∨ ∃ kept : Span, kept.Within span ∧ kept.Delimits source edit.replacement)

/-- Taking away a placed node keeps a piece of it. -/
theorem Tree.keeps_of_removal {tree : Tree} {pragmas : Pragmas} {entry : Entry} {edit : Edit}
    (placed : entry.outline.Placed tree.source)
    (removed : tree.removal pragmas entry.site = .ok (some edit)) :
    edit.Keeps tree.source entry.site.span := by
  obtain ⟨-, ⟨-, rfl⟩ | ⟨-, tags, inner, tagsEq, cut, rfl⟩⟩ := Tree.removal_eq_some_iff.1 removed
  · exact ⟨rfl, Or.inl rfl⟩
  · have ownTags : entry.outline.kind.tags? = some tags := tagsEq
    obtain ⟨begins, ends⟩ := (placed.holds ownTags).delimit.inner_within
    obtain ⟨front, back, -, -, innerEq⟩ := Text.exists_trimLines inner
    have delimits : tags.inner.Delimits tree.source inner := cut
    have stopEq := delimits.stop_eq
    rw [innerEq] at delimits
    have sizes := congrArg Text.bytes innerEq
    rw [Text.bytes_append, Text.bytes_append] at sizes
    refine ⟨rfl, Or.inr ⟨⟨tags.inner.start + Text.bytes front,
      tags.inner.start + Text.bytes front + Text.bytes (Text.trimLines inner)⟩, ⟨?_, ?_⟩,
      Text.slice?_part delimits⟩⟩
    · exact Nat.le_trans begins (Nat.le_add_right _ _)
    · apply Nat.le_trans _ ends
      show tags.inner.start + Text.bytes front + Text.bytes (Text.trimLines inner) ≤ tags.inner.stop
      omega

section Parser

variable [SyntaxParser]

/-- Whether whatever is cut out of a source on the way from its tree to an editor is there: what
stands between the tags of a node that is taken away, what stands between the edits of a pass, and
what stands in front of the ends of a range that is shown. -/
structure Sliceable (dialect : Dialect) (source : Text) (tree : Tree) : Prop where
  removal : ∀ pragmas id site, tree.site? id = some site →
    ∃ fix, tree.removal pragmas site = .ok fix ∧ ∀ edit ∈ fix, edit.Keeps source site.span
  check : ∀ settings slice, lint settings dialect source ≠ .error (.badSlice slice)
  fixes : ∀ settings reports, lint settings dialect source = .ok reports →
    ∃ mended, Edit.applyAll source (fixes reports) = some mended
  diagnostics : ∀ settings (document : Document), document.text = source →
    lint settings dialect source = .ok document.reports →
      ∃ shown, document.diagnostics? = some shown
  quickFixes : ∀ settings (document : Document), document.text = source →
    lint settings dialect source = .ok document.reports →
      ∀ range, ∃ actions, document.quickFixes? range = some actions

variable [LawfulSyntaxParser] {dialect : Dialect} {source : Text} {tree : Tree}

namespace Tree

theorem exists_removal (accepted : ofSource dialect source = .ok tree) (pragmas : Pragmas)
    {id : Nat} {site : Site} (found : tree.site? id = some site) :
    ∃ fix, tree.removal pragmas site = .ok fix ∧ ∀ edit ∈ fix, edit.Keeps source site.span := by
  obtain ⟨all, records⟩ := exists_records accepted
  rw [records.lists.site?_eq_map_entries] at found
  obtain ⟨entry, listed, rfl⟩ := Option.map_eq_some_iff.1 found
  have member := List.mem_of_getElem? listed
  obtain ⟨fix, removed⟩ := records.exists_removal pragmas member
  refine ⟨fix, removed, ?_⟩
  rintro edit rfl
  rw [← source_ofSource accepted]
  exact keeps_of_removal (records.placed entry member) removed

end Tree

/-- Span soundness and total slicing. In the tree of an accepted source, every span of a node, a
tag, an attribute or a comment is sound, tags frame their node, attributes stand in the opening tag
in order, and children lie within their parents. Therefore nothing is cut out that is not there: not
when any node is taken away, not by the check under any settings, nor by the pass that applies its
fixes, nor where its reports and their quick fixes are shown. -/
theorem sound_and_sliceable (accepted : Tree.ofSource dialect source = .ok tree) :
    tree.Sound source ∧ Sliceable dialect source tree := by
  refine ⟨Tree.sound_ofSource accepted, ?_, ?_, ?_, ?_, ?_⟩
  · intro pragmas id site found
    exact Tree.exists_removal accepted pragmas found
  · intro settings slice failed
    rcases lint_eq_error_iff.1 failed with unread | ⟨_, _, -, -, different⟩
    · rw [accepted] at unread
      cases unread
    · cases different
  · intro settings reports checked
    exact exists_pass checked
  · rintro settings document rfl checked
    obtain ⟨shown, isShown, -⟩ := Document.exists_diagnostics? checked
    exact ⟨shown, isShown⟩
  · rintro settings document rfl checked range
    exact Document.exists_quickFixes? checked range

end Parser

open Scripts

/-- Characters of two and of three bytes stand in an attribute, in a text, in a comment in braces
and in one behind the markup. -/
theorem sound_and_sliceable_multibyte :
    ∃ tree, Tree.ofSource .javascript
        "<p title=\"é\">ü<>\n\x7b/* ☃ */\x7d<b/></></p> // ß".toList = .ok tree
      ∧ tree.nodes.toList.map (·.span)
        = [⟨0, 47⟩, ⟨0, 41⟩, ⟨14, 16⟩, ⟨16, 37⟩, ⟨18, 19⟩, ⟨19, 30⟩, ⟨20, 29⟩, ⟨30, 34⟩]
      ∧ tree.comments.map (·.span) = [⟨20, 29⟩, ⟨42, 47⟩]
      ∧ tree.Sound "<p title=\"é\">ü<>\n\x7b/* ☃ */\x7d<b/></></p> // ß".toList
      ∧ Sliceable .javascript "<p title=\"é\">ü<>\n\x7b/* ☃ */\x7d<b/></></p> // ß".toList tree := by
  have computed : (Tree.ofSource .javascript
      "<p title=\"é\">ü<>\n\x7b/* ☃ */\x7d<b/></></p> // ß".toList).toOption.map
        (fun tree => (tree.nodes.toList.map (·.span), tree.comments.map (·.span)))
      = some ([⟨0, 47⟩, ⟨0, 41⟩, ⟨14, 16⟩, ⟨16, 37⟩, ⟨18, 19⟩, ⟨19, 30⟩, ⟨20, 29⟩, ⟨30, 34⟩],
        [⟨20, 29⟩, ⟨42, 47⟩]) := by
    decide +kernel
  obtain ⟨tree, isTree, parts⟩ := Option.map_eq_some_iff.1 computed
  obtain ⟨nodes, comments⟩ := Prod.mk.inj parts
  obtain ⟨sound, sliceable⟩ := sound_and_sliceable (ok_of_toOption isTree)
  exact ⟨tree, ok_of_toOption isTree, nodes, comments, sound, sliceable⟩

end FragmentLint
