import FragmentLint.Proofs.Grammar.Concrete
import FragmentLint.Proofs.Markup.Nesting
import FragmentLint.Proofs.Markup.Shape
import FragmentLint.Proofs.Rule.ValuePosition

/-!
Contract: what becomes of the markup in a fragment that is taken away.

A fix leaves what stands between the tags, up to padding at its two ends. An element or fragment
stands in angle brackets, so none that stands there is cut; but what was written in an attribute of
the fragment goes away with it. Main statement: `fix_leaves_iff`.

Does not own: what the markup that is left renders.
-/

namespace FragmentLint

/-- What stands in angle brackets in a padded place does not reach into the padding. -/
theorem Span.Delimits.within_padded_iff {source front middle back piece : Text} {outer span : Span}
    (whole : outer.Delimits source (front ++ (middle ++ back)))
    (frontPadding : front.IsPadding) (backPadding : back.IsPadding)
    (delimits : span.Delimits source piece) (bracketed : piece.Bracketed) :
    span.Within ⟨outer.start + Text.bytes front,
        outer.start + Text.bytes front + Text.bytes middle⟩
      ↔ span.Within outer := by
  have wholeEq := whole.stop_eq
  rw [Text.bytes_append, Text.bytes_append] at wholeEq
  constructor
  · rintro ⟨begins, ends⟩
    have begins' : outer.start + Text.bytes front ≤ span.start := begins
    have ends' : span.stop ≤ outer.start + Text.bytes front + Text.bytes middle := ends
    exact ⟨by omega, by omega⟩
  · rintro ⟨begins, ends⟩
    -- What stands in front of it and behind it in the place makes up the place with it.
    obtain ⟨before, cutBefore⟩ := Text.exists_slice?_of_le (Text.isBoundary_start whole)
      (Text.isBoundary_start delimits) begins
    obtain ⟨after, cutAfter⟩ := Text.exists_slice?_of_le (Text.isBoundary_stop delimits)
      (Text.isBoundary_stop whole) ends
    have parts : outer.Delimits source (before ++ (piece ++ after)) :=
      Text.slice?_trans cutBefore (Text.slice?_trans delimits cutAfter)
    obtain ⟨frontLe, backLe⟩ :=
      Text.bytes_le_of_padded frontPadding backPadding bracketed (parts.unique whole)
    have startEq := Text.stop_of_slice? cutBefore
    have stopEq := Text.stop_of_slice? cutAfter
    refine ⟨?_, ?_⟩
    · show outer.start + Text.bytes front ≤ span.start
      omega
    · show span.stop ≤ outer.start + Text.bytes front + Text.bytes middle
      omega

namespace Outline

variable {source : Text} {outline : Outline}

/-- Markup is found aside of elements and of constructs only. -/
theorem Placed.aside_eq_nil (placed : Placed source outline)
    (untagged : outline.kind.isTagged = false)
    (noConstruct : ∀ construct, outline.kind ≠ .other construct) : outline.aside = [] := by
  cases placed with
  | text => rfl
  | empty => rfl
  | @other construct => exact absurd rfl (noConstruct construct)
  | container => rfl
  | tagged tagsEq =>
    exact absurd (NodeKind.isTagged_of_tags? tagsEq) (Bool.eq_false_iff.1 untagged)
  | root => rfl

/-- Nothing is found aside of a fragment in shorthand, which has no attributes. -/
theorem Written.aside_of_fragment {root : SyntaxNode} {parent : Option NodeKind}
    (lawful : root.Lawful source) (written : Written source root parent outline) {tags : Tags}
    (kindEq : outline.kind = .fragment tags) : outline.aside = [] := by
  obtain ⟨ancestors, part, inRoot, markup, rfl⟩ :=
    written.exists_markup (by rw [kindEq]; rfl)
  have named (tag : SyntaxNode) (isLawful : tag.Lawful source) (tagsToo : Tags) :
      elementOf source tag tagsToo ≠ .fragment tags := by
    obtain ⟨element, isElement⟩ := exists_elementOf isLawful tagsToo
    intro isFragment
    rw [isFragment] at isElement
    cases isElement
  rcases ofMarkup_cases ancestors (lawful.part inRoot) markup with
    ⟨-, outlineEq⟩ | ⟨opening, closing, content, pair, outlineEq⟩
  · rw [outlineEq] at kindEq
    exact absurd kindEq (named part (lawful.part inRoot) _)
  · rw [outlineEq, ofTags] at kindEq ⊢
    split at kindEq
    · exact absurd kindEq (named opening ((lawful.part inRoot).child pair.mem_opening) _)
    · rw [if_neg ‹_›]
      rfl

/-- In a fragment around nothing but empty braces there are no elements and no fragments. -/
theorem Placed.untagged_of_isVacant {root : SyntaxNode} {holder : Entry}
    (placed : Placed source holder.outline) (lawful : root.Lawful source)
    (written : Written source root holder.parent holder.outline)
    (vacant : holder.site.isVacant = true) :
    ∀ entry ∈ holder.outline.belongings, entry.outline.kind.isTagged = false := by
  obtain ⟨tags, only, kindEq, childrenEq, onlyVacant⟩ := Site.isVacant_iff.1 vacant
  obtain ⟨child, others, split, rfl, none⟩ := List.map_eq_cons_iff.1 childrenEq
  obtain rfl := List.map_eq_nil_iff.1 none
  have childPlaced : Placed source child := placed.children child (by rw [split]; simp)
  obtain ⟨isContainer, inside, insideEq, isEmpty⟩ := childPlaced.children_of_isVacant onlyVacant
  have insidePlaced : Placed source inside := childPlaced.children inside (by rw [insideEq]; simp)
  have inChild : child.belongings = [⟨some .container, inside⟩] := by
    have noAside := childPlaced.aside_eq_nil (by rw [isContainer]; rfl) (by simp [isContainer])
    have noAsideInside := insidePlaced.aside_eq_nil (by rw [isEmpty]; rfl) (by simp [isEmpty])
    have noChildren := insidePlaced.children_of_leaf (Or.inr isEmpty)
    have nothing : inside.belongings = [] := by
      unfold belongings
      rw [noAsideInside, noChildren]
      simp only [entriesAll, List.append_nil]
    unfold belongings
    rw [noAside, insideEq, isContainer, entriesAll_singleton, nothing]
    simp only [entriesAll, List.nil_append]
  have noAside := written.aside_of_fragment lawful kindEq
  intro entry member
  unfold belongings at member
  rw [noAside, split, entriesAll_singleton, inChild] at member
  simp only [entriesAll, List.nil_append, List.mem_cons, List.not_mem_nil, or_false] at member
  rcases member with rfl | rfl
  · show child.kind.isTagged = false
    rw [isContainer]
    rfl
  · show inside.kind.isTagged = false
    rw [isEmpty]
    rfl

end Outline

namespace Tree

/-- Whether a node is an element or fragment that stands within another one. -/
structure StandsIn (tree : Tree) (id other : Nat) (node below : Node) : Prop where
  known : tree.node? id = some node
  knownBelow : tree.node? other = some below
  apart : other ≠ id
  tagged : below.kind.isTagged = true
  within : below.span.Within node.span

/-- Whether a span is what an edit leaves of a node: what stands between the tags of the node, up to
padding at its two ends. -/
structure Leaves (tree : Tree) (node : Node) (edit : Edit) (kept : Span) : Prop where
  range : edit.range = node.span
  delimits : kept.Delimits tree.source edit.replacement
  padded : ∃ tags front back, node.kind.tags? = some tags
    ∧ tags.inner.Delimits tree.source (front ++ (edit.replacement ++ back))
    ∧ kept.start = tags.inner.start + Text.bytes front
    ∧ front.IsPadding ∧ back.IsPadding

variable {tree : Tree} {all : List Entry}

/-- What stands within an element or fragment belongs to it, and stands in angle brackets. -/
theorem StandsIn.exists_belonging (records : tree.Records all)
    (ordered : all.Pairwise Entry.Precedes) {id other : Nat} {node below : Node} {entry : Entry}
    (listed : all[id]? = some entry) (describes : Outline.Describes all node entry)
    (tagged : entry.outline.kind.isTagged = true) (standsIn : tree.StandsIn id other node below) :
    ∃ found ∈ entry.outline.belongings, found.outline.kind.isTagged = true
      ∧ below.span = found.outline.span
      ∧ ∃ piece, below.span.Delimits tree.source piece ∧ piece.Bracketed := by
  obtain ⟨-, knownBelow, apart, taggedBelow, within⟩ := standsIn
  obtain ⟨found, listedBelow, describesBelow⟩ := records.lists.exists_entry knownBelow
  have placed := records.placed found (List.mem_of_getElem? listedBelow)
  rw [describesBelow.kind] at taggedBelow
  rw [describesBelow.span, describes.span] at within
  have visible := placed.start_lt_stop (Outline.isContent_of_isTagged taggedBelow)
  have belongs := mem_belongings_of_within ordered listed listedBelow apart tagged taggedBelow
    visible within
  obtain ⟨tags, tagsEq⟩ := NodeKind.exists_tags taggedBelow
  have bracketed := (placed.holds tagsEq).delimit.bracketed
  rw [← describesBelow.span] at bracketed
  exact ⟨found, belongs, taggedBelow, describesBelow.span, bracketed⟩

/-- Trimming what stands between the tags of a node leaves everything in angle brackets there. -/
theorem exists_leaves {node : Node} {tags : Tags} {inner : Text}
    (tagsEq : node.kind.tags? = some tags) (cut : tags.inner.Delimits tree.source inner) :
    ∃ kept, tree.Leaves node ⟨node.span, Text.trimLines inner⟩ kept
      ∧ ∀ span : Span, ∀ piece, span.Delimits tree.source piece → piece.Bracketed →
        (span.Within kept ↔ span.Within tags.inner) := by
  obtain ⟨front, back, frontPadding, backPadding, innerEq⟩ := Text.exists_trimLines inner
  rw [innerEq] at cut
  refine ⟨⟨tags.inner.start + Text.bytes front,
    tags.inner.start + Text.bytes front + Text.bytes (Text.trimLines inner)⟩, ?_, ?_⟩
  · exact ⟨rfl, Text.slice?_part cut, tags, front, back, tagsEq, cut, rfl, frontPadding,
      backPadding⟩
  · intro span piece delimits bracketed
    exact cut.within_padded_iff frontPadding backPadding delimits bracketed

end Tree

section Parser

variable [SyntaxParser] [LawfulSyntaxParser]

/-- What a fix leaves of the markup in a fragment: of the elements and fragments that stand within
it, just those that do not stand in one of its attributes, each of them whole. -/
theorem fix_leaves_iff {dialect : Dialect} {source : Text} {settings : Settings} {tree : Tree}
    {reports : List Report} {report : Report} {edit : Edit}
    (accepted : Tree.ofSource dialect source = .ok tree)
    (checked : tree.lint settings = .ok reports)
    (member : report ∈ reports) (fixed : report.fix = some edit) :
    ∃ pragmas, Pragmas.resolve tree.comments settings = .ok pragmas
      ∧ (∃ id, tree.ReportsOn pragmas id report)
      ∧ ∀ id node, tree.node? id = some node → tree.ReportsOn pragmas id report →
        (tree.WrapsNothing node ∧ edit = ⟨node.span, "<></>".toList⟩
            ∧ ∀ other below, ¬ tree.StandsIn id other node below)
          ∨ ∃ kept, tree.Leaves node edit kept
            ∧ ∀ other below, tree.StandsIn id other node below →
              (below.span.Within kept ↔ ¬ node.kind.HasInAttribute below.span) := by
  obtain ⟨root, all, lawful, records, written, ordered⟩ := Tree.exists_nested accepted
  obtain ⟨pragmas, resolved, reported⟩ := Tree.exists_reportsOn_of_lint checked member
  refine ⟨pragmas, resolved, reported, ?_⟩
  intro id node known reportsOn
  obtain ⟨entry, tags, listed, describes, tagsEq, -, removed⟩ :=
    records.exists_reported known reportsOn
  have isEntry : entry ∈ all := List.mem_of_getElem? listed
  have placed := records.placed entry isEntry
  have own := written entry isEntry
  rw [Tree.source_ofSource accepted] at placed
  have tagged := NodeKind.isTagged_of_tags? tagsEq
  have belonging := fun other below (standsIn : tree.StandsIn id other node below) =>
    standsIn.exists_belonging records ordered listed describes tagged
  rw [fixed] at removed
  obtain ⟨-, ⟨vacant, rfl⟩ | ⟨-, tagsAgain, inner, tagsAgainEq, cut, rfl⟩⟩ :=
    Tree.removal_eq_some_iff.1 removed
  · left
    rw [describes.span]
    refine ⟨records.wrapsNothing describes isEntry vacant, rfl, ?_⟩
    intro other below standsIn
    obtain ⟨found, belongs, taggedBelow, -⟩ := belonging other below standsIn
    rw [placed.untagged_of_isVacant lawful own vacant found belongs] at taggedBelow
    cases taggedBelow
  · right
    obtain rfl : tagsAgain = tags := Option.some.inj (tagsAgainEq.symm.trans tagsEq)
    have tagsOfNode : node.kind.tags? = some tagsAgain := by
      rw [describes.kind]
      exact tagsEq
    obtain ⟨kept, leaves, whole⟩ := Tree.exists_leaves tagsOfNode cut
    rw [describes.span] at leaves
    refine ⟨kept, leaves, ?_⟩
    intro other below standsIn
    obtain ⟨found, belongs, taggedBelow, spanEq, piece, delimits, bracketed⟩ :=
      belonging other below standsIn
    have visible : found.outline.span.start < found.outline.span.stop := by
      rw [← spanEq]
      obtain ⟨inside, rfl⟩ := bracketed
      exact delimits.start_lt_stop (List.cons_ne_nil _ _)
    refine (whole below.span piece delimits bracketed).trans ?_
    rw [spanEq, describes.kind]
    exact own.within_inner_iff lawful tagsEq belongs taggedBelow visible

end Parser

open Scripts

/-- Of two elements in a fragment, one between its tags and one in an attribute, the first is
left. -/
theorem fix_leaves_content :
    ∃ tree reports report edit pragmas node first second kept,
      Tree.ofSource .javascript "<p><Fragment a=\x7b<i/>\x7d> <b/>\n</Fragment></p>".toList
        = .ok tree
      ∧ tree.lint .unset = .ok reports ∧ report ∈ reports ∧ report.fix = some edit
      ∧ Pragmas.resolve tree.comments .unset = .ok pragmas ∧ tree.ReportsOn pragmas 2 report
      ∧ tree.StandsIn 2 6 node first ∧ tree.StandsIn 2 4 node second
      ∧ tree.Leaves node edit kept ∧ first.span.Within kept ∧ ¬ second.span.Within kept := by
  have checks : (Tree.ofSource .javascript
      "<p><Fragment a=\x7b<i/>\x7d> <b/>\n</Fragment></p>".toList).toOption.map
      (fun tree => ((tree.lint .unset).toOption, (Pragmas.resolve tree.comments .unset).toOption,
        (tree.reportsAt default 2).toOption))
      = some (some [⟨⟨3, 39⟩, .childOfHostElement, some ⟨⟨3, 39⟩, " <b/>".toList⟩⟩], some default,
        some [⟨⟨3, 39⟩, .childOfHostElement, some ⟨⟨3, 39⟩, " <b/>".toList⟩⟩]) := by
    decide +kernel
  have places : (Tree.ofSource .javascript
      "<p><Fragment a=\x7b<i/>\x7d> <b/>\n</Fragment></p>".toList).toOption.map
      (fun tree => (tree.node? 2, tree.node? 6, tree.node? 4))
      = some (some ⟨.element ⟨.identifier "Fragment".toList,
            [⟨some "a".toList, some .expression, ⟨13, 21⟩⟩], ⟨⟨3, 22⟩, some ⟨28, 39⟩⟩⟩,
          ⟨3, 39⟩, some 1, [5, 6, 7]⟩,
        some ⟨.element ⟨.identifier "b".toList, [], ⟨⟨23, 27⟩, none⟩⟩, ⟨23, 27⟩, some 2, []⟩,
        some ⟨.element ⟨.identifier "i".toList, [], ⟨⟨16, 20⟩, none⟩⟩, ⟨16, 20⟩, some 3, []⟩) := by
    decide +kernel
  obtain ⟨tree, isTree, checksEq⟩ := Option.map_eq_some_iff.1 checks
  rw [isTree, Option.map_some, Option.some.injEq] at places
  simp only [Prod.mk.injEq] at checksEq places
  obtain ⟨linted, resolved, own⟩ := checksEq
  obtain ⟨known, knownFirst, knownSecond⟩ := places
  have accepted := ok_of_toOption isTree
  have checked := ok_of_toOption linted
  have reportsOn : tree.ReportsOn default 2 _ := ⟨_, ok_of_toOption own, List.mem_singleton_self _⟩
  have first : tree.StandsIn 2 6 _ _ := ⟨known, knownFirst, by decide, rfl, by decide, by decide⟩
  have second : tree.StandsIn 2 4 _ _ := ⟨known, knownSecond, by decide, rfl, by decide, by decide⟩
  obtain ⟨pragmas, resolvedAgain, -, leaves⟩ :=
    fix_leaves_iff accepted checked (List.mem_singleton_self _) rfl
  rw [ok_of_toOption resolved] at resolvedAgain
  obtain rfl := Except.ok.inj resolvedAgain
  rcases leaves 2 _ known reportsOn with ⟨-, -, nothing⟩ | ⟨kept, leavesKept, exactly⟩
  · exact absurd first (nothing 6 _)
  · refine ⟨tree, _, _, _, default, _, _, _, kept, accepted, checked, List.mem_singleton_self _,
      rfl, ok_of_toOption resolved, reportsOn, first, second, leavesKept, (exactly 6 _ first).2 ?_,
      fun within => (exactly 4 _ second).1 within ?_⟩
    · rintro ⟨element, given, isElement, isGiven, begins, ends⟩
      cases isElement
      obtain rfl := List.mem_singleton.1 isGiven
      exact absurd ends (by decide)
    · exact ⟨_, _, rfl, List.mem_singleton_self _, by decide, by decide⟩

/-- A fragment that is given its children as an attribute is taken away with them. -/
theorem fix_drops_children_attribute :
    ∃ tree reports report edit pragmas node below,
      Tree.ofSource .javascript "<div><Fragment children=\x7b<b/>\x7d/></div>".toList = .ok tree
      ∧ tree.lint .unset = .ok reports ∧ report ∈ reports ∧ report.fix = some edit
      ∧ Pragmas.resolve tree.comments .unset = .ok pragmas ∧ tree.ReportsOn pragmas 2 report
      ∧ tree.StandsIn 2 4 node below ∧ edit = ⟨node.span, []⟩
      ∧ ∀ kept, tree.Leaves node edit kept → ¬ below.span.Within kept := by
  have checks : (Tree.ofSource .javascript
      "<div><Fragment children=\x7b<b/>\x7d/></div>".toList).toOption.map
      (fun tree => ((tree.lint .unset).toOption, (Pragmas.resolve tree.comments .unset).toOption,
        (tree.reportsAt default 2).toOption))
      = some (some [⟨⟨5, 32⟩, .childOfHostElement, some ⟨⟨5, 32⟩, []⟩⟩], some default,
        some [⟨⟨5, 32⟩, .childOfHostElement, some ⟨⟨5, 32⟩, []⟩⟩]) := by
    decide +kernel
  have places : (Tree.ofSource .javascript
      "<div><Fragment children=\x7b<b/>\x7d/></div>".toList).toOption.map
      (fun tree => (tree.node? 2, tree.node? 4))
      = some (some ⟨.element ⟨.identifier "Fragment".toList,
            [⟨some "children".toList, some .expression, ⟨15, 30⟩⟩], ⟨⟨5, 32⟩, none⟩⟩,
          ⟨5, 32⟩, some 1, []⟩,
        some ⟨.element ⟨.identifier "b".toList, [], ⟨⟨25, 29⟩, none⟩⟩, ⟨25, 29⟩, some 3, []⟩) := by
    decide +kernel
  obtain ⟨tree, isTree, checksEq⟩ := Option.map_eq_some_iff.1 checks
  rw [isTree, Option.map_some, Option.some.injEq] at places
  simp only [Prod.mk.injEq] at checksEq places
  obtain ⟨linted, resolved, own⟩ := checksEq
  obtain ⟨known, knownBelow⟩ := places
  have standsIn : tree.StandsIn 2 4 _ _ :=
    ⟨known, knownBelow, by decide, rfl, by decide, by decide⟩
  refine ⟨tree, _, _, _, default, _, _, ok_of_toOption isTree, ok_of_toOption linted,
    List.mem_singleton_self _, rfl, ok_of_toOption resolved,
    ⟨_, ok_of_toOption own, List.mem_singleton_self _⟩, standsIn, rfl, ?_⟩
  rintro kept leaves ⟨begins, ends⟩
  -- Nothing is left, so there is no room for anything in it.
  have stopEq := leaves.delimits.stop_eq
  rw [Text.bytes_nil] at stopEq
  simp only at begins ends
  omega

end FragmentLint
