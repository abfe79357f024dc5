import FragmentLint.Proofs.Rendering.Content
import FragmentLint.Proofs.Text.Solid

/-!
Contract: the source of content that is joined and trimmed.

Main statements: joining texts that meet keeps the source (`spellAll_joined`), and trimming content
that is solid but for its texts trims the source (`spellAll_trimmed`).
-/

namespace FragmentLint.Rendering.Content

/-- Whether what is no text neither begins nor ends with a blank. -/
def IsSolid : Content → Prop
  | text _ => True
  | other source _ => Text.Solid source

section Members

variable {holds : Content → Prop} {contents : List Content}

theorem forall_trimFirst (trims : ∀ raw, holds (text raw) → holds (text (Text.trimFront raw)))
    (all : ∀ content ∈ contents, holds content) :
    ∀ content ∈ trimFirst contents, holds content := by
  unfold trimFirst
  split
  next raw rest =>
    rw [List.forall_mem_cons] at all ⊢
    exact ⟨trims raw all.1, all.2⟩
  next => exact all

theorem forall_trimLast (trims : ∀ raw, holds (text raw) → holds (text (Text.trimBack raw)))
    (all : ∀ content ∈ contents, holds content) : ∀ content ∈ trimLast contents, holds content := by
  induction contents with
  | nil => exact all
  | cons head rest inductionHypothesis =>
    rw [List.forall_mem_cons] at all
    unfold trimLast
    split
    next none => cases none
    next single =>
      obtain ⟨rfl, rfl⟩ := List.cons.inj single
      exact List.forall_mem_cons.2 ⟨trims _ all.1, all.2⟩
    next same =>
      obtain ⟨rfl, rfl⟩ := List.cons.inj same
      exact List.forall_mem_cons.2 ⟨all.1, inductionHypothesis all.2⟩

/-- What holds of contents, and still holds where texts are joined, holds of them joined. No text is
left empty. -/
theorem forall_joined {pending : Text}
    (joins : ∀ left right, holds (text left) → holds (text right) → holds (text (left ++ right)))
    (nothing : holds (text [])) (before : holds (text pending))
    (all : ∀ content ∈ contents, holds content) :
    ∀ content ∈ joined pending contents, holds content ∧ content ≠ text [] := by
  have start {pending : Text} (before : holds (text pending)) :
      ∀ content ∈ (if pending = [] then [] else [text pending]),
        holds content ∧ content ≠ text [] := by
    split
    next => exact fun content member => absurd member List.not_mem_nil
    next visible =>
      intro content member
      rw [List.mem_singleton.1 member]
      exact ⟨before, fun same => visible (text.inj same)⟩
  induction contents generalizing pending with
  | nil => exact start before
  | cons head rest inductionHypothesis =>
    rw [List.forall_mem_cons] at all
    cases head with
    | text raw => exact inductionHypothesis (joins _ _ before all.1) all.2
    | other source rendered =>
      rw [joined, List.forall_mem_append, List.forall_mem_cons]
      exact ⟨start before, ⟨all.1, Content.noConfusion⟩, inductionHypothesis nothing all.2⟩

/-- No texts meet in contents that are joined. -/
theorem isChain_joined (pending : Text) (contents : List Content) :
    (joined pending contents).IsChain Apart := by
  induction contents generalizing pending with
  | nil =>
    unfold joined
    split
    · exact .nil
    · exact .singleton _
  | cons head rest inductionHypothesis =>
    cases head with
    | text raw => exact inductionHypothesis (pending ++ raw)
    | other source rendered =>
      have behind : (other source rendered :: joined [] rest).IsChain Apart :=
        List.isChain_cons.2 ⟨fun _ _ => Or.inl rfl, inductionHypothesis []⟩
      rw [joined]
      split
      · exact behind
      · exact List.isChain_cons.2 ⟨fun next isNext => Or.inr (by cases isNext; rfl), behind⟩

end Members

theorem spellAll_cons (head : Content) (rest : List Content) :
    spellAll (head :: rest) = head.spell ++ spellAll rest := List.flatMap_cons

theorem spellAll_append (left right : List Content) :
    spellAll (left ++ right) = spellAll left ++ spellAll right := List.flatMap_append

theorem spellAll_joined (pending : Text) (contents : List Content) :
    spellAll (joined pending contents) = pending ++ spellAll contents := by
  have start (pending : Text) : spellAll (if pending = [] then [] else [text pending])
      = pending := by
    split
    next none =>
      rw [none]
      rfl
    next => exact List.append_nil _
  induction contents generalizing pending with
  | nil =>
    rw [joined, start]
    exact (List.append_nil _).symm
  | cons head rest inductionHypothesis =>
    cases head with
    | text raw =>
      rw [joined, inductionHypothesis, spellAll_cons, List.append_assoc]
      rfl
    | other source rendered =>
      rw [joined, spellAll_append, start, spellAll_cons, inductionHypothesis, List.nil_append,
        spellAll_cons]

theorem lead_spellAll {contents : List Content} (solid : ∀ content ∈ contents, content.IsSolid)
    (noText : ∀ content ∈ contents.head?, content.isText = false) :
    Text.lead (spellAll contents) = [] := by
  cases contents with
  | nil => rfl
  | cons head rest =>
    cases head with
    | text raw => cases noText _ rfl
    | other source rendered =>
      have solidHead : Text.Solid source := solid _ List.mem_cons_self
      exact solidHead.lead_append (spellAll rest)

theorem trail_spellAll {contents : List Content} (solid : ∀ content ∈ contents, content.IsSolid)
    (noText : ∀ content ∈ contents.getLast?, content.isText = false) :
    Text.trail (spellAll contents) = [] := by
  rcases List.eq_nil_or_concat contents with rfl | ⟨before, last, rfl⟩
  · rfl
  · rw [List.concat_eq_append] at solid noText ⊢
    have isLast : last ∈ (before ++ [last]).getLast? := by simp
    cases last with
    | text raw => cases noText _ isLast
    | other source rendered =>
      have solidLast : Text.Solid source := solid (other source rendered) (by simp)
      rw [spellAll_append, spellAll_cons]
      show Text.trail (spellAll before ++ (source ++ [])) = []
      rw [List.append_nil]
      exact solidLast.trail_append (spellAll before)

theorem spellAll_trimFirst {contents : List Content} (solid : ∀ content ∈ contents, content.IsSolid)
    (apart : contents.IsChain Apart) :
    spellAll (trimFirst contents) = Text.trimFront (spellAll contents) := by
  cases contents with
  | nil => rfl
  | cons head rest =>
    cases head with
    | text raw =>
      have restSolid := fun content member => solid content (List.mem_cons_of_mem _ member)
      have noText : ∀ content ∈ rest.head?, content.isText = false := by
        intro content isFirst
        rcases (List.isChain_cons.1 apart).1 content isFirst with none | none
        · cases none
        · exact none
      rw [trimFirst, spellAll_cons, spellAll_cons]
      exact (Text.trimFront_append (lead_spellAll restSolid noText) raw).symm
    | other source rendered =>
      refine (Text.trimFront_of_lead_nil (lead_spellAll solid ?_)).symm
      rintro _ ⟨⟩
      rfl

theorem trimLast_append_text (before : List Content) (raw : Text) :
    trimLast (before ++ [text raw]) = before ++ [text (Text.trimBack raw)] := by
  induction before with
  | nil => rfl
  | cons head rest inductionHypothesis =>
    rw [List.cons_append, trimLast, inductionHypothesis, List.cons_append]
    simp

theorem trimLast_append_other (before : List Content) (source : Text) (rendered : List Piece) :
    trimLast (before ++ [other source rendered]) = before ++ [other source rendered] := by
  induction before with
  | nil => rfl
  | cons head rest inductionHypothesis =>
    rw [List.cons_append, trimLast, inductionHypothesis]
    simp

theorem spellAll_trimLast {contents : List Content} (solid : ∀ content ∈ contents, content.IsSolid)
    (apart : contents.IsChain Apart) :
    spellAll (trimLast contents) = Text.trimBack (spellAll contents) := by
  rcases List.eq_nil_or_concat contents with rfl | ⟨before, last, rfl⟩
  · rfl
  · rw [List.concat_eq_append] at solid apart ⊢
    cases last with
    | text raw =>
      have noText : ∀ content ∈ before.getLast?, content.isText = false := by
        intro content isLast
        rcases (List.isChain_append.1 apart).2.2 content isLast _ rfl with none | none
        · exact none
        · cases none
      have beforeSolid := fun content member => solid content (List.mem_append_left _ member)
      rw [trimLast_append_text, spellAll_append, spellAll_append]
      show spellAll before ++ (Text.trimBack raw ++ [])
        = Text.trimBack (spellAll before ++ (raw ++ []))
      rw [List.append_nil, List.append_nil, Text.trimBack_append
        (trail_spellAll beforeSolid noText)]
    | other source rendered =>
      rw [trimLast_append_other]
      have same := Text.trimBack_append (trail_spellAll solid (by simp [isText])) []
      rw [List.append_nil] at same
      rw [same]
      exact (List.append_nil _).symm

/-- Trimming contents trims their source. -/
theorem spellAll_trimmed {contents : List Content} (solid : ∀ content ∈ contents, content.IsSolid)
    (apart : contents.IsChain Apart) :
    spellAll (trimmed contents) = Text.trimLines (spellAll contents) := by
  have firstApart := isChain_of_map_isText (map_isText_trimFirst contents) apart
  unfold trimmed Text.trimLines
  rw [spellAll_trimLast (forall_trimFirst (fun _ _ => trivial) solid) firstApart,
    spellAll_trimFirst solid apart]

end FragmentLint.Rendering.Content
