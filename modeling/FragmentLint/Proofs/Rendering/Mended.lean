import FragmentLint.Proofs.Edit
import FragmentLint.Proofs.Rendering.Reread
import FragmentLint.Proofs.Rule.Removal

/-!
Contract: what a fix leaves between two tags.

A fix that takes a fragment away puts the trimmed contents of the fragment there (`exists_replaced`,
`spellAll_mended`). Main statement: what is rendered is kept if and only if the texts that meet are
compiled alike together and apart (`piecesAll_mended_eq_iff`).

Does not own: whether these contents are read there again.
-/

namespace FragmentLint

open Rendering

namespace Rendering.Content

/-- The contents of an element or fragment after a fragment among them was taken away. Out of one
that holds nothing but vacant braces the braces are taken. -/
def mended (vacant : Bool) (before inner after : List Content) : List Content :=
  if vacant then before ++ other "<></>".toList [] :: after else spliced before inner after

/-- Taking a fragment away keeps what is rendered if and only if it holds nothing but vacant braces
or the texts that meet are compiled alike together and apart. -/
theorem piecesAll_mended_eq_iff {vacant : Bool} {before inner after : List Content}
    (beforeApart : before.IsChain Apart) (innerApart : inner.IsChain Apart)
    (afterApart : after.IsChain Apart) (nothing : vacant = true → piecesAll inner = []) :
    piecesAll (mended vacant before inner after)
        = piecesAll before ++ (piecesAll inner ++ piecesAll after)
      ↔ vacant = true ∨ Keeps (lastText [] before) (trimmed inner) (firstText after) := by
  cases vacant with
  | true =>
    rw [nothing rfl, mended, if_pos rfl, piecesAll_append, piecesAll_cons]
    exact ⟨fun _ => Or.inl rfl, fun _ => rfl⟩
  | false =>
    rw [mended, if_neg Bool.false_ne_true, pieces_spliced_eq_iff beforeApart innerApart afterApart]
    exact ⟨Or.inr, fun either => either.resolve_left Bool.false_ne_true⟩

end Rendering.Content

namespace Outline

variable {source : Text} {pragmas : Pragmas}

/-- Whether an outline is a fragment in shorthand around nothing but vacant braces. -/
def isVacant (outline : Outline) : Bool := (Entry.site ⟨none, outline⟩).isVacant

/-- What is between the tags of an element or a fragment after the fragment `wrapper` between
`before` and `after` was taken away. -/
def mended (source : Text) (pragmas : Pragmas) (before : List Outline) (wrapper : Outline)
    (after : List Outline) : List Content :=
  Content.mended wrapper.isVacant (contents source pragmas before)
    (contents source pragmas wrapper.children) (contents source pragmas after)

/-- Whether what is rendered is kept when the fragment `wrapper` between `before` and `after` is
taken away. -/
def KeepsRendering (source : Text) (pragmas : Pragmas) (before : List Outline) (wrapper : Outline)
    (after : List Outline) : Prop :=
  wrapper.isVacant = true
    ∨ Content.Keeps (Content.lastText [] (contents source pragmas before))
      (Content.trimmed (contents source pragmas wrapper.children))
      (Content.firstText (contents source pragmas after))

instance (source : Text) (pragmas : Pragmas) (before : List Outline) (wrapper : Outline)
    (after : List Outline) : Decidable (KeepsRendering source pragmas before wrapper after) :=
  inferInstanceAs (Decidable (_ ∨ _))

theorem rendered_eq_renderedAll {outline : Outline}
    (wrapper : outline.kind.isWrapper pragmas = true)
    (keyless : outline.kind.isKeyed = false) :
    rendered source pragmas outline = renderedAll source pragmas outline.children := by
  obtain ⟨tags, tagsEq⟩ := NodeKind.exists_tags_of_isWrapper wrapper
  cases outline with
  | node kind span aside children =>
    simp only [Outline.kind] at wrapper keyless tagsEq
    rw [rendered_of_tags tagsEq, wrapper, keyless]
    rfl

theorem renderedAll_of_isVacant {outline : Outline} (vacant : outline.isVacant = true) :
    renderedAll source pragmas outline.children = [] := by
  unfold isVacant Site.isVacant at vacant
  split at vacant
  next tags only kindEq childrenEq =>
    obtain ⟨child, others, split, rfl, noOther⟩ := List.map_eq_cons_iff.1 childrenEq
    obtain rfl := List.map_eq_nil_iff.1 noOther
    rw [split]
    cases child with
    | node kind span aside children =>
      have braces : Child.isVacant ⟨kind, children.head?.map Outline.kind⟩ = true := vacant
      have isContainer : kind = .container := eq_of_beq (Bool.and_eq_true_iff.1 braces).1
      have noText : kind.text? = none := by
        rw [isContainer]
        rfl
      simp only [renderedAll, rendered, noText, braces]
      rfl
  next => cases vacant

variable {above wrapper : Outline} {before after : List Outline}

/-- What an element or fragment renders when a fragment among its children is taken away is what it
rendered before if and only if the texts that meet then are compiled alike together and apart. -/
theorem piecesAll_mended_eq_iff {tags : Tags} (placed : Placed source above)
    (tagsEq : above.kind.tags? = some tags) (split : above.children = before ++ wrapper :: after)
    {ownTags : Tags} (ownTagsEq : wrapper.kind.tags? = some ownTags)
    (isWrapper : wrapper.kind.isWrapper pragmas = true) (keyless : wrapper.kind.isKeyed = false) :
    Content.piecesAll (mended source pragmas before wrapper after)
        = renderedAll source pragmas above.children
      ↔ KeepsRendering source pragmas before wrapper after := by
  have apart := (placed.holds tagsEq).apart
  rw [split] at apart
  obtain ⟨beforeApart, behindApart, -⟩ := List.isChain_append.1 apart
  have afterApart := (List.isChain_cons.1 behindApart).2
  have wrapperPlaced : Placed source wrapper := placed.children wrapper (by simp [split])
  have whole : renderedAll source pragmas above.children
      = Content.piecesAll (contents source pragmas before)
        ++ (Content.piecesAll (contents source pragmas wrapper.children)
          ++ Content.piecesAll (contents source pragmas after)) := by
    rw [← renderedAll_eq wrapper.children, ← rendered_eq_renderedAll isWrapper keyless,
      ← pieces_content, renderedAll_eq, split]
    unfold contents
    rw [List.map_append, List.map_cons, Content.piecesAll_append, Content.piecesAll_cons]
  rw [whole]
  refine Content.piecesAll_mended_eq_iff (isChain_contents beforeApart)
    (isChain_contents (wrapperPlaced.holds ownTagsEq).apart) (isChain_contents afterApart) ?_
  intro vacant
  rw [← renderedAll_eq]
  exact renderedAll_of_isVacant vacant

/-- Where a fragment among the children of an element or fragment is replaced, and what stands
around it. -/
theorem exists_replaced {tags : Tags} (placed : Placed source above)
    (tagsEq : above.kind.tags? = some tags) (split : above.children = before ++ wrapper :: after)
    {edit : Edit} (range : edit.range = wrapper.span) :
    ∃ front back, source = front
        ++ (Content.spellAll (contents source pragmas above.children) ++ back)
      ∧ Text.bytes front = tags.inner.start
      ∧ Edit.applyAll source [edit] = some (front
        ++ ((Content.spellAll (contents source pragmas before) ++ (edit.replacement
          ++ Content.spellAll (contents source pragmas after))) ++ back)) := by
  have inner := @Placed.inner_contents source pragmas above tags placed tagsEq
  obtain ⟨front, back, whole, frontSize, innerStop⟩ := Text.slice?_eq_some_iff.1 inner
  refine ⟨front, back, whole, frontSize, ?_⟩
  have tiled := (placed.holds tagsEq).tiled
  rw [split] at tiled
  obtain ⟨middle, beforeTiled, startEq, -⟩ := tiled.exists_middle
  have beforePlaced : ∀ outline ∈ before, Placed source outline := fun outline member =>
    placed.children outline (by rw [split]; exact List.mem_append_left _ member)
  have wrapperPlaced : Placed source wrapper := placed.children wrapper (by simp [split])
  have sliced := @Tiled.slice?_contents source pragmas _ _ _ beforeTiled
    (Text.isBoundary_start inner) beforePlaced
  have middleEq := Text.stop_of_slice? sliced
  obtain ⟨piece, delimits⟩ := wrapperPlaced.delimits
  have stopEq := delimits.stop_eq
  have pieces : Content.spellAll (contents source pragmas above.children)
      = Content.spellAll (contents source pragmas before)
        ++ (piece ++ Content.spellAll (contents source pragmas after)) := by
    rw [split]
    unfold contents
    rw [List.map_append, List.map_cons, Content.spellAll_append, Content.spellAll_cons,
      wrapperPlaced.spell_content, sourceIn_eq delimits]
  have applied := @Edit.applyAll_singleton
    (front ++ Content.spellAll (contents source pragmas before)) piece
    (Content.spellAll (contents source pragmas after) ++ back) edit
    (by rw [range, startEq, middleEq, Text.bytes_append, frontSize])
    (by rw [range, stopEq, startEq, middleEq, Text.bytes_append, frontSize])
  have wholePieces : front ++ Content.spellAll (contents source pragmas before)
      ++ (piece ++ (Content.spellAll (contents source pragmas after) ++ back)) = source := by
    refine Eq.trans ?_ whole.symm
    rw [pieces]
    simp only [List.append_assoc]
  rw [wholePieces] at applied
  rw [applied]
  simp only [List.append_assoc]

/-- The contents that a fix leaves are spelled as the source that it leaves. -/
theorem spellAll_mended {tree : Tree} (placed : Placed tree.source wrapper) {site : Site}
    {edit : Edit}
    (removed : tree.removal pragmas site = .ok (some edit)) (kindEq : site.kind = wrapper.kind)
    (vacantEq : site.isVacant = wrapper.isVacant) :
    Content.spellAll (mended tree.source pragmas before wrapper after)
      = Content.spellAll (contents tree.source pragmas before) ++ (edit.replacement
        ++ Content.spellAll (contents tree.source pragmas after)) := by
  unfold mended Content.mended
  obtain ⟨-, ⟨vacant, rfl⟩ | ⟨occupied, tags, inner, tagsEq, cut, rfl⟩⟩ :=
    Tree.removal_eq_some_iff.1 removed
  · rw [if_pos (vacantEq.symm.trans vacant), Content.spellAll_append, Content.spellAll_cons]
    rfl
  · rw [kindEq] at tagsEq
    have holds := placed.holds tagsEq
    have solid : ∀ content ∈ contents tree.source pragmas wrapper.children, content.IsSolid := by
      intro content member
      obtain ⟨child, isChild, rfl⟩ := List.mem_map.1 member
      exact (placed.children child isChild).isSolid_content (holds.content child isChild)
    have innerEq := Span.Delimits.unique cut (@Placed.inner_contents _ pragmas _ _ placed tagsEq)
    have notVacant : ¬wrapper.isVacant = true := by
      rw [← vacantEq, occupied]
      exact Bool.false_ne_true
    rw [if_neg notVacant, Content.spliced, Content.spellAll_joined, Content.spellAll_append,
      Content.spellAll_append, Content.spellAll_trimmed solid (isChain_contents holds.apart),
        innerEq]
    rfl

/-! ## Reading the source again -/

section Members

variable {root : SyntaxNode}

open SyntaxNode

/-- Whether content may be spliced in, once texts that meet are joined. -/
def MaySplice (source : Text) (root : SyntaxNode) (pragmas : Pragmas) : Content → Prop
  | .text raw => raw.isPlain = true
  | .other piece pieces => Spliced source root pragmas (.other piece pieces)

theorem ReadFrom.spliced {content : Content} (readFrom : ReadFrom source root pragmas content)
    (unhidden : ∀ raw, content = .text raw → ¬ Text.hiddenMark <:+: raw) :
    Spliced source root pragmas content := by
  cases readFrom with
  | text visible marked => exact .text visible (Text.isPlain_of_isMarked marked (unhidden _ rfl))
  | next isNext structural delimits => exact .next isNext structural delimits

theorem Spliced.maySplice {content : Content} (spliced : Spliced source root pragmas content) :
    MaySplice source root pragmas content := by
  cases spliced with
  | text _ plain => exact plain
  | next isNext structural delimits => exact .next isNext structural delimits
  | emptyFragment => exact .emptyFragment

theorem MaySplice.spliced {content : Content} (maySplice : MaySplice source root pragmas content)
    (visible : content ≠ .text []) : Spliced source root pragmas content := by
  cases content with
  | text raw => exact .text (fun none => visible (congrArg Content.text none)) maySplice
  | other piece pieces => exact maySplice

/-- What a fix leaves between two tags may stand there. -/
theorem spliced_mended {before after : List Outline} {wrapper : Outline}
    (beforeSpliced : ∀ content ∈ contents source pragmas before,
      Spliced source root pragmas content)
    (innerSpliced : ∀ content ∈ contents source pragmas wrapper.children,
      Spliced source root pragmas content)
    (afterSpliced : ∀ content ∈ contents source pragmas after,
      Spliced source root pragmas content) :
    ∀ content ∈ mended source pragmas before wrapper after,
      Spliced source root pragmas content := by
  unfold mended Content.mended
  split
  · rw [List.forall_mem_append, List.forall_mem_cons]
    exact ⟨beforeSpliced, .emptyFragment, afterSpliced⟩
  · have trimmed : ∀ content ∈ Content.trimmed (contents source pragmas wrapper.children),
        MaySplice source root pragmas content :=
      Content.forall_trimLast (fun _ => Text.isPlain_trimBack)
        (Content.forall_trimFirst (fun _ => Text.isPlain_trimFront)
          fun content member => (innerSpliced content member).maySplice)
    have joined := @Content.forall_joined (MaySplice source root pragmas) _ []
      (fun _ _ => Text.isPlain_append) rfl rfl
      (List.forall_mem_append.2 ⟨fun content member => (beforeSpliced content member).maySplice,
        List.forall_mem_append.2 ⟨trimmed, fun content member =>
          (afterSpliced content member).maySplice⟩⟩)
    intro content member
    exact (joined content member).1.spliced (joined content member).2

theorem isChain_mended {before after : List Outline} {wrapper : Outline}
    (beforeApart : before.IsChain Apart) (afterApart : after.IsChain Apart) :
    (mended source pragmas before wrapper after).IsChain Content.Apart := by
  unfold mended Content.mended
  split
  · have behind : (Content.other "<></>".toList [] :: contents source pragmas after).IsChain
        Content.Apart :=
      List.isChain_cons.2 ⟨fun _ _ => Or.inl rfl, isChain_contents afterApart⟩
    refine List.isChain_append.2 ⟨isChain_contents beforeApart, behind, ?_⟩
    rintro last - next ⟨⟩
    exact Or.inr rfl
  · exact Content.isChain_joined _ _

end Members

end Outline

end FragmentLint
