import FragmentLint.Proofs.Rendering.Spelling

/-!
Contract: a source falls apart into content in one way only.

Text that stands between two tags ends at the first tag or brace, unless that is the mark of a
hidden line. If no other content begins like a hidden line, and none is the beginning of another one
or of a closing tag, then what stands in front of a closing tag is content in one way only. Main
statement: `eq_of_spellAll_eq`.

Owns: plain text, and when it is set apart from what follows it.
Does not own: which content there is.
-/

namespace FragmentLint

namespace Text

/-- The mark that a hidden line between two tags begins with. -/
def hiddenMark : Text := "<!--".toList

/-- Whether a character can neither begin a tag nor a pair of braces. -/
def isPlainChar (c : Char) : Bool := c != '<' && c != '\x7b'

/-- Whether there is neither a tag nor a brace in a piece of text. -/
def isPlain (text : Text) : Bool := text.all isPlainChar

/-- Whether there is neither a tag nor a brace in a piece of text, but in a hidden line. -/
def isMarked (text : Text) : Bool :=
  isPlain text || hiddenMark.isPrefixOf (text.dropWhile isPlainChar)

/-- Whether one of two texts is the beginning of the other. -/
def Comparable (left right : Text) : Prop := left <+: right ∨ right <+: left

instance (left right : Text) : Decidable (Comparable left right) :=
  inferInstanceAs (Decidable (_ ∨ _))

/-- Whether a piece of text begins as a tag or a pair of braces, and not as a hidden line. -/
structure BeginsNext (piece : Text) : Prop where
  first : ∃ c ∈ piece.head?, isPlainChar c = false
  visible : ¬ Comparable piece hiddenMark

variable {left right piece text : Text}

theorem Comparable.symm (comparable : Comparable left right) : Comparable right left :=
  Or.symm comparable

theorem comparable_of_append {front back : Text} (same : left ++ front = right ++ back) :
    Comparable left right := by
  rcases List.append_eq_append_iff.1 same with ⟨middle, rfl, -⟩ | ⟨middle, rfl, -⟩
  · exact Or.inl (List.prefix_append left middle)
  · exact Or.inr (List.prefix_append right middle)

theorem dropWhile_append_of_plain (plain : isPlain left = true) (right : Text) :
    (left ++ right).dropWhile isPlainChar = right.dropWhile isPlainChar :=
  List.dropWhile_append_of_pos (List.all_eq_true.1 plain)

/-- Where a text is not plain, something that begins a tag or braces is left behind its plain part.
-/
theorem dropWhile_append_of_not_plain (notPlain : isPlain left = false) (right : Text) :
    (left ++ right).dropWhile isPlainChar = left.dropWhile isPlainChar ++ right := by
  rw [List.dropWhile_append, if_neg]
  rw [List.isEmpty_iff, List.dropWhile_eq_nil_iff]
  exact fun plain => Bool.eq_false_iff.1 notPlain (List.all_eq_true.2 plain)

theorem BeginsNext.dropWhile (begins : BeginsNext piece) (rest : Text) :
    (piece ++ rest).dropWhile isPlainChar = piece ++ rest := by
  obtain ⟨c, isFirst, special⟩ := begins.first
  obtain ⟨others, rfl⟩ := List.head?_eq_some_iff.1 isFirst
  rw [List.cons_append, List.dropWhile_cons_of_neg (by simp [special])]

theorem isMarked_append (first : isMarked left = true) (second : isMarked right = true) :
    isMarked (left ++ right) = true := by
  unfold isMarked at *
  rw [Bool.or_eq_true] at *
  cases plain : isPlain left with
  | true =>
    rw [dropWhile_append_of_plain plain, isPlain, List.all_append]
    rw [show left.all isPlainChar = true from plain, Bool.true_and]
    exact second
  | false =>
    rw [dropWhile_append_of_not_plain plain]
    have mark := first.resolve_left (Bool.eq_false_iff.1 plain)
    rw [List.isPrefixOf_iff_prefix] at mark ⊢
    exact Or.inr (mark.trans (List.prefix_append _ _))

theorem isMarked_of_isPlain (plain : isPlain text = true) : isMarked text = true := by
  rw [isMarked, plain, Bool.true_or]

theorem isPlain_append (first : isPlain left = true) (second : isPlain right = true) :
    isPlain (left ++ right) = true := by
  rw [isPlain, List.all_append, Bool.and_eq_true]
  exact ⟨first, second⟩

/-- Trimming takes nothing but characters away. -/
theorem isPlain_trimFront (plain : isPlain text = true) : isPlain (trimFront text) = true := by
  unfold trimFront
  split
  · exact List.all_eq_true.2 fun c member =>
      List.all_eq_true.1 plain c ((List.dropWhile_suffix _).subset member)
  · exact plain

theorem isPlain_trimBack (plain : isPlain text = true) : isPlain (trimBack text) = true := by
  unfold isPlain at *
  rw [trimBack, List.all_reverse]
  exact isPlain_trimFront (by rw [isPlain, List.all_reverse]; exact plain)

/-- Without the mark of a hidden line there is no tag and no brace in a text. -/
theorem isPlain_of_isMarked (marked : isMarked text = true) (none : ¬ hiddenMark <:+: text) :
    isPlain text = true := by
  unfold isMarked at marked
  rw [Bool.or_eq_true, List.isPrefixOf_iff_prefix] at marked
  refine marked.resolve_right fun mark => none ?_
  exact mark.isInfix.trans (List.dropWhile_suffix _).isInfix

/-- What follows text that is set apart tells where the text ends. -/
theorem append_inj_of_isMarked {next next' rest rest' : Text} (plain : isPlain left = true)
    (marked : isMarked right = true) (begins : BeginsNext next) (begins' : BeginsNext next')
    (same : left ++ (next ++ rest) = right ++ (next' ++ rest')) : left = right := by
  have behind := congrArg (List.dropWhile isPlainChar) same
  rw [dropWhile_append_of_plain plain, begins.dropWhile] at behind
  cases plain' : isPlain right with
  | true =>
    rw [dropWhile_append_of_plain plain', begins'.dropWhile] at behind
    rw [behind] at same
    exact List.append_cancel_right same
  | false =>
    rw [dropWhile_append_of_not_plain plain'] at behind
    unfold isMarked at marked
    rw [plain', Bool.false_or, List.isPrefixOf_iff_prefix] at marked
    obtain ⟨hidden, hiddenEq⟩ := marked
    rw [← hiddenEq, List.append_assoc] at behind
    exact (begins.visible (comparable_of_append behind)).elim

/-- Text that is set apart does not begin where a tag or a pair of braces does. -/
theorem not_append_eq_of_isMarked {rest rest' : Text} (visible : text ≠ [])
    (marked : isMarked text = true) (begins : BeginsNext piece) :
    piece ++ rest ≠ text ++ rest' := by
  intro same
  obtain ⟨c, others, rfl⟩ := List.exists_cons_of_ne_nil visible
  obtain ⟨d, isFirst, special⟩ := begins.first
  obtain ⟨others', rfl⟩ := List.head?_eq_some_iff.1 isFirst
  have sameFirst : d = c := (List.cons.inj same).1
  have notPlain : isPlain (c :: others) = false := by
    rw [isPlain, List.all_cons, ← sameFirst, special, Bool.false_and]
  unfold isMarked at marked
  rw [notPlain, Bool.false_or, List.dropWhile_cons_of_neg (by simp [← sameFirst, special]),
    List.isPrefixOf_iff_prefix] at marked
  obtain ⟨hidden, hiddenEq⟩ := marked
  rw [← hiddenEq, List.append_assoc] at same
  exact begins.visible (comparable_of_append same)

end Text

namespace Rendering.Content

/-- Whether text is there and of some sort, and other content begins a tag or a pair of braces. -/
def Fits (sort : Text → Bool) : Content → Prop
  | text raw => raw ≠ [] ∧ sort raw = true
  | other source _ => Text.BeginsNext source

variable {last last' rest rest' : Text}

/-- Text that is set apart is followed by a tag or a pair of braces. -/
theorem exists_next (rest : Text) {raw : Text} {sort : Text → Bool} {contents : List Content}
    (apart : (text raw :: contents).IsChain Apart) (fits : ∀ content ∈ contents, content.Fits sort)
    (begins : Text.BeginsNext last) :
    ∃ next behind, Text.BeginsNext next ∧ spellAll contents ++ (last ++ rest) = next ++ behind := by
  cases contents with
  | nil => exact ⟨last, rest, begins, rfl⟩
  | cons head others =>
    cases head with
    | text more =>
      rcases (List.isChain_cons.1 apart).1 (text more) rfl with noText | noText <;> cases noText
    | other source rendered =>
      refine ⟨source, spellAll others ++ (last ++ rest), fits _ List.mem_cons_self, ?_⟩
      rw [spellAll_cons, List.append_assoc]
      rfl

/-- What stands in front of a closing tag is content in one way only. -/
theorem eq_of_spellAll_eq {left right : List Content} (leftApart : left.IsChain Apart)
    (rightApart : right.IsChain Apart) (leftFits : ∀ content ∈ left, content.Fits Text.isPlain)
    (rightFits : ∀ content ∈ right, content.Fits Text.isMarked)
    (begins : Text.BeginsNext last) (begins' : Text.BeginsNext last')
    (leftGoesOn : ∀ content ∈ left, content.isText = false → ¬ Text.Comparable content.spell last')
    (rightGoesOn : ∀ content ∈ right, content.isText = false →
      ¬ Text.Comparable last content.spell)
    (alike : ∀ content ∈ left, ∀ content' ∈ right, content.isText = false →
      content'.isText = false → Text.Comparable content.spell content'.spell → content = content')
    (same : spellAll left ++ (last ++ rest) = spellAll right ++ (last' ++ rest')) :
    left = right := by
  induction left generalizing right with
  | nil =>
    cases right with
    | nil => rfl
    | cons head' others' =>
      rw [spellAll_cons, List.append_assoc] at same
      have fits' := rightFits head' List.mem_cons_self
      cases head' with
      | text raw => exact (Text.not_append_eq_of_isMarked fits'.1 fits'.2 begins same).elim
      | other source rendered =>
        exact (rightGoesOn _ List.mem_cons_self rfl (Text.comparable_of_append same)).elim
  | cons head others inductionHypothesis =>
    cases right with
    | nil =>
      rw [spellAll_cons, List.append_assoc] at same
      have fits := leftFits head List.mem_cons_self
      cases head with
      | text raw =>
        have marked := Text.isMarked_of_isPlain fits.2
        exact (Text.not_append_eq_of_isMarked fits.1 marked begins' same.symm).elim
      | other source rendered =>
        exact (leftGoesOn _ List.mem_cons_self rfl (Text.comparable_of_append same)).elim
    | cons head' others' =>
      rw [spellAll_cons, spellAll_cons, List.append_assoc, List.append_assoc] at same
      have heads : head = head' := by
        have fits := leftFits head List.mem_cons_self
        have fits' := rightFits head' List.mem_cons_self
        cases head with
        | text raw =>
          cases head' with
          | text raw' =>
            obtain ⟨next, behind, nextBegins, nextEq⟩ := exists_next rest leftApart
              (fun content member => leftFits content (List.mem_cons_of_mem _ member)) begins
            obtain ⟨next', behind', nextBegins', nextEq'⟩ := exists_next rest' rightApart
              (fun content member => rightFits content (List.mem_cons_of_mem _ member)) begins'
            rw [nextEq, nextEq'] at same
            exact congrArg text
              (Text.append_inj_of_isMarked fits.2 fits'.2 nextBegins nextBegins' same)
          | other source' rendered' =>
            have marked := Text.isMarked_of_isPlain fits.2
            exact (Text.not_append_eq_of_isMarked fits.1 marked fits' same.symm).elim
        | other source rendered =>
          cases head' with
          | text raw' => exact (Text.not_append_eq_of_isMarked fits'.1 fits'.2 fits same).elim
          | other source' rendered' =>
            exact alike _ List.mem_cons_self _ List.mem_cons_self rfl rfl
              (Text.comparable_of_append same)
      subst heads
      congr 1
      exact inductionHypothesis (List.isChain_cons.1 leftApart).2 (List.isChain_cons.1 rightApart).2
        (fun content member => leftFits content (List.mem_cons_of_mem _ member))
        (fun content member => rightFits content (List.mem_cons_of_mem _ member))
        (fun content member => leftGoesOn content (List.mem_cons_of_mem _ member))
        (fun content member => rightGoesOn content (List.mem_cons_of_mem _ member))
        (fun content member content' member' => alike content (List.mem_cons_of_mem _ member)
          content' (List.mem_cons_of_mem _ member'))
        (List.append_cancel_left same)

end Rendering.Content

end FragmentLint
