import FragmentLint.Proofs.Pragma
import FragmentLint.Proofs.Rule.Shorthand

/-!
Contract: the names of fragments, told by how a name is displayed.

The test for a name of fragments takes the name apart. A display is one text, in which a name of any
depth could hide. But where no word holds a dot or a colon, the last dot divides the last word of a
dotted name from the rest, and a colon the two halves of a qualified one. So names with the same display
are the same (`display_injective`), and to compare displays is as good. Main statement:
`nameFragment_iff_display`.

Does not own: how a name is read off a tag.
-/

namespace FragmentLint

/-- A text falls apart at its last mark in one way. -/
theorem Text.append_cons_inj {mark : Char} {front front' back back' : Text} (last : mark ∉ back)
    (last' : mark ∉ back') (same : front ++ mark :: back = front' ++ mark :: back') :
    front = front' ∧ back = back' := by
  have nothing {more back back' : Text} (last : mark ∉ back)
      (same : mark :: back = more ++ mark :: back') : more = [] ∧ back = back' := by
    cases more with
    | nil => exact ⟨rfl, (List.cons.inj same).2⟩
    | cons c more =>
      refine absurd ?_ last
      rw [(List.cons.inj same).2]
      exact List.mem_append_right _ List.mem_cons_self
  rcases List.append_eq_append_iff.1 same with ⟨more, rfl, split⟩ | ⟨more, rfl, split⟩
  · obtain ⟨rfl, rfl⟩ := nothing last split
    exact ⟨(List.append_nil front).symm, rfl⟩
  · obtain ⟨rfl, rfl⟩ := nothing last' split
    exact ⟨List.append_nil front', rfl⟩

namespace ElementName

/-- The words of a name, from left to right. -/
def words : ElementName → List Text
  | identifier word => [word]
  | member object property => object.words ++ [property]
  | namespaced space suffix => [space, suffix]

/-- Whether no word of a name holds a sign that may stand between two words. -/
def IsPlain (name : ElementName) : Prop := ∀ word ∈ name.words, '.' ∉ word ∧ ':' ∉ word

theorem isPlain_identifier_iff {word : Text} :
    (identifier word).IsPlain ↔ '.' ∉ word ∧ ':' ∉ word := by
  simp [IsPlain, words]

theorem isPlain_member_iff {object : ElementName} {property : Text} :
    (member object property).IsPlain ↔ object.IsPlain ∧ '.' ∉ property ∧ ':' ∉ property := by
  unfold IsPlain
  rw [words, List.forall_mem_append, List.forall_mem_singleton]

theorem isPlain_namespaced_iff {space suffix : Text} :
    (namespaced space suffix).IsPlain
      ↔ ('.' ∉ space ∧ ':' ∉ space) ∧ '.' ∉ suffix ∧ ':' ∉ suffix := by
  simp [IsPlain, words]

/-! ## Displays -/

section Display

variable {name : ElementName}

/-- In the display of a plain name there is a dot if and only if the name is a dotted one. -/
theorem dot_mem_display_iff (plain : name.IsPlain) :
    '.' ∈ name.display ↔ ∃ object property, name = member object property := by
  cases name with
  | identifier word => exact iff_of_false (isPlain_identifier_iff.1 plain).1 (by simp)
  | member object property => exact iff_of_true (by simp [display]) ⟨object, property, rfl⟩
  | namespaced space suffix =>
    obtain ⟨⟨inSpace, -⟩, inSuffix, -⟩ := isPlain_namespaced_iff.1 plain
    exact iff_of_false (by simp [display, inSpace, inSuffix]) (by simp)

theorem colon_mem_display_of_identifier {word : Text} (plain : (identifier word).IsPlain) :
    ':' ∉ (identifier word).display :=
  (isPlain_identifier_iff.1 plain).2

theorem colon_mem_display_of_namespaced (space suffix : Text) :
    ':' ∈ (namespaced space suffix).display :=
  List.mem_append_right _ List.mem_cons_self

end Display

/-- Plain names with the same display are the same, however deep they are. -/
theorem display_injective {first second : ElementName} (plain : first.IsPlain)
    (plainToo : second.IsPlain) (same : first.display = second.display) : first = second := by
  have dots : (∃ object property, first = member object property)
      ↔ ∃ object property, second = member object property := by
    rw [← dot_mem_display_iff plain, ← dot_mem_display_iff plainToo, same]
  induction first generalizing second with
  | identifier word =>
    cases second with
    | identifier other => exact congrArg identifier same
    | member object property => exact absurd (dots.2 ⟨object, property, rfl⟩) (by simp)
    | namespaced space suffix =>
      have colon := colon_mem_display_of_namespaced space suffix
      rw [← same] at colon
      exact absurd colon (colon_mem_display_of_identifier plain)
  | member object property inductionHypothesis =>
    obtain ⟨other, otherProperty, rfl⟩ := dots.1 ⟨object, property, rfl⟩
    obtain ⟨objectPlain, inProperty, -⟩ := isPlain_member_iff.1 plain
    obtain ⟨otherPlain, inOther, -⟩ := isPlain_member_iff.1 plainToo
    obtain ⟨objects, rfl⟩ := Text.append_cons_inj inProperty inOther same
    have objectDots := dot_mem_display_iff objectPlain
    rw [objects, dot_mem_display_iff otherPlain] at objectDots
    rw [inductionHypothesis objectPlain otherPlain objects objectDots.symm]
  | namespaced space suffix =>
    cases second with
    | identifier word =>
      have colon := colon_mem_display_of_namespaced space suffix
      rw [same] at colon
      exact absurd colon (colon_mem_display_of_identifier plainToo)
    | member object property => exact absurd (dots.2 ⟨object, property, rfl⟩) (by simp)
    | namespaced otherSpace otherSuffix =>
      obtain ⟨-, -, inSuffix⟩ := isPlain_namespaced_iff.1 plain
      obtain ⟨-, -, inOther⟩ := isPlain_namespaced_iff.1 plainToo
      obtain ⟨rfl, rfl⟩ := Text.append_cons_inj inSuffix inOther same
      rfl

end ElementName

namespace Pragmas

theorem IsIdentifier.colon_not_mem {name : Text} (isIdentifier : IsIdentifier name) :
    ':' ∉ name := by
  obtain ⟨first, rest, rfl, starts, others⟩ := isIdentifier
  have notColon : ¬ BeginsIdentifier ':' := by
    unfold BeginsIdentifier
    decide
  intro member
  rcases List.mem_cons.1 member with rfl | inRest
  · exact notColon starts
  · rcases others ':' inRest with starts | ⟨-, digit⟩
    · exact notColon starts
    · exact absurd digit (by decide)

theorem IsIdentifier.isPlain {name : Text} (isIdentifier : IsIdentifier name) :
    (ElementName.identifier name).IsPlain :=
  ElementName.isPlain_identifier_iff.2
    ⟨isIdentifier.ne_nil_and_not_mem.2, isIdentifier.colon_not_mem⟩

variable {comments : List Comment} {settings : Settings} {pragmas : Pragmas}

/-- Names that are found are identifiers. -/
theorem isIdentifier_of_resolve (resolved : resolve comments settings = .ok pragmas) :
    IsIdentifier pragmas.react ∧ IsIdentifier pragmas.fragment := by
  obtain ⟨reactResolved, fragmentResolved⟩ := resolve_eq_ok_iff.1 resolved
  obtain ⟨isReact, reactEq⟩ := validate_eq_ok_iff.1 reactResolved
  obtain ⟨isFragment, fragmentEq⟩ := validate_eq_ok_iff.1 fragmentResolved
  rw [reactEq, fragmentEq]
  exact ⟨isIdentifier_iff.1 isReact, isIdentifier_iff.1 isFragment⟩

/-- A name whose words hold neither dots nor colons is one of the two names of fragments if and only if
it is displayed as one of them. -/
theorem nameFragment_iff_display (resolved : resolve comments settings = .ok pragmas)
    {name : ElementName} (plain : name.IsPlain) :
    pragmas.nameFragment name = true
      ↔ name.display = pragmas.fragment
        ∨ name.display = pragmas.react ++ '.' :: pragmas.fragment := by
  obtain ⟨isReact, isFragment⟩ := isIdentifier_of_resolve resolved
  have dotted : (ElementName.member (.identifier pragmas.react) pragmas.fragment).IsPlain :=
    ElementName.isPlain_member_iff.2
      ⟨isReact.isPlain, ElementName.isPlain_identifier_iff.1 isFragment.isPlain⟩
  rw [nameFragment_iff]
  constructor
  · rintro (rfl | rfl)
    · exact Or.inl rfl
    · exact Or.inr rfl
  · rintro (short | long)
    · exact Or.inl (ElementName.display_injective plain isFragment.isPlain short)
    · exact Or.inr (ElementName.display_injective plain dotted long)

/-- With an annotation that says `h`, the name `h.Fragment` is one of fragments, and a name that goes on
in front of the `h` is not. -/
theorem nameFragment_iff_display_annotated :
    ∃ pragmas, resolve [⟨⟨0, 11⟩, " @jsx h ".toList⟩] ⟨none⟩ = .ok pragmas
      ∧ (ElementName.member (.identifier ['h']) "Fragment".toList).IsPlain
      ∧ pragmas.nameFragment (.member (.identifier ['h']) "Fragment".toList) = true
      ∧ (ElementName.member (.namespaced ['a'] ['h']) "Fragment".toList).IsPlain
      ∧ pragmas.nameFragment (.member (.namespaced ['a'] ['h']) "Fragment".toList) = false := by
  have resolved : resolve [⟨⟨0, 11⟩, " @jsx h ".toList⟩] ⟨none⟩ = .ok ⟨['h'], "Fragment".toList⟩ := by
    decide
  have dotted : (ElementName.member (.identifier ['h']) "Fragment".toList).IsPlain := by
    unfold ElementName.IsPlain
    decide
  have longer : (ElementName.member (.namespaced ['a'] ['h']) "Fragment".toList).IsPlain := by
    unfold ElementName.IsPlain
    decide
  refine ⟨_, resolved, dotted, (nameFragment_iff_display resolved dotted).2 (Or.inr rfl), longer, ?_⟩
  rw [← Bool.not_eq_true, nameFragment_iff_display resolved longer]
  decide

end Pragmas

end FragmentLint
