import FragmentLint.File.Locator
import FragmentLint.Proofs.File.Percent
import FragmentLint.Proofs.File.Uri

/-!
Contract: the library of identifiers in normal form keeps to its guarantees.

Main statement: the identifier of a path is taken apart into the path that was encoded in it, and
that is decoded to a path of the same parts (`filePath?_of_ofPath?`).
-/

namespace FragmentLint

namespace Locator

/-- Names that are encoded one by one and joined by slashes are decoded to their bytes, with the
slashes in between. -/
theorem decodeBytes_joinWith (names : List Text) :
    Percent.decodeBytes (Text.joinWith '/' (names.map (Percent.encode inName)))
      = (Text.joinWith '/' names).flatMap String.utf8EncodeChar := by
  have percent : inName '%' = true := by decide
  induction names with
  | nil => rfl
  | cons first others inductionHypothesis =>
    cases others with
    | nil =>
      have alone := Percent.decodeBytes_encode_append percent first []
      rw [List.append_nil, Percent.decodeBytes, List.append_nil] at alone
      exact alone
    | cons second rest =>
      rw [List.map_cons] at inductionHypothesis
      rw [List.map_cons, List.map_cons, Text.joinWith, Text.joinWith,
        Percent.decodeBytes_encode_append percent, Percent.decodeBytes_cons_of_ne (by decide),
        inductionHypothesis, List.flatMap_append, List.flatMap_cons]

/-- Whether a character begins the query or the fragment of an identifier. -/
def isSuffixMark (c : Char) : Bool := c == '?' || c == '#'

theorem isSuffixMark_digit (value : Fin 16) : isSuffixMark (Percent.digit value.val) = false := by
  revert value
  decide

theorem not_isSuffixMark_of_mem_encodeByte {byte : UInt8} {c : Char}
    (member : c ∈ Percent.encodeByte byte) : isSuffixMark c = false := by
  have size : byte.toNat < 256 := byte.toNat_lt
  simp only [Percent.encodeByte, List.mem_cons, List.not_mem_nil, or_false] at member
  rcases member with rfl | rfl | rfl
  · decide
  · exact isSuffixMark_digit ⟨byte.toNat / 16, by omega⟩
  · exact isSuffixMark_digit ⟨byte.toNat % 16, by omega⟩

/-- Nothing in an encoded name ends a path. -/
theorem not_isSuffixMark_of_mem_encode {name : Text} {c : Char}
    (member : c ∈ Percent.encode inName name) : isSuffixMark c = false := by
  unfold Percent.encode at member
  obtain ⟨plain, -, inPlain⟩ := List.mem_flatMap.1 member
  split at inPlain
  · obtain ⟨byte, -, inByte⟩ := List.mem_flatMap.1 inPlain
    exact not_isSuffixMark_of_mem_encodeByte inByte
  next free =>
    obtain rfl := List.mem_singleton.1 inPlain
    rw [← Bool.not_eq_true]
    intro mark
    apply free
    simp only [isSuffixMark, Bool.or_eq_true, beq_iff_eq] at mark
    rcases mark with rfl | rfl <;> decide

theorem mem_joinWith {mark c : Char} {pieces : List Text} (member : c ∈ Text.joinWith mark pieces) :
    c = mark ∨ ∃ piece ∈ pieces, c ∈ piece := by
  induction pieces with
  | nil => cases member
  | cons first others inductionHypothesis =>
    cases others with
    | nil => exact Or.inr ⟨first, List.mem_cons_self, member⟩
    | cons second rest =>
      rw [Text.joinWith] at member
      rcases List.mem_append.1 member with inFirst | inRest
      · exact Or.inr ⟨first, List.mem_cons_self, inFirst⟩
      · rcases List.mem_cons.1 inRest with isMark | inRest
        · exact Or.inl isMark
        · rcases inductionHypothesis inRest with isMark | ⟨piece, isPiece, inPiece⟩
          · exact Or.inl isMark
          · exact Or.inr ⟨piece, List.mem_cons_of_mem _ isPiece, inPiece⟩

theorem upTo_of_free {mark : Char → Bool} {text : Text} (free : ∀ c ∈ text, mark c = false) :
    upTo mark text = (text, []) := by
  have all : ∀ c ∈ text, (!mark c) = true := by
    intro c member
    rw [free c member]
    rfl
  unfold upTo
  rw [List.takeWhile_eq_self_iff.2 all, List.dropWhile_eq_nil_iff.2 all]

/-- The identifier of a file is taken apart into its scheme, no host, and its path. -/
theorem ofNormal_uri_of_free {path : Text} (free : ∀ c ∈ path, isSuffixMark c = false) :
    ofNormal (uri ⟨fileScheme, some [], '/' :: path, []⟩).text
      = ⟨fileScheme, some [], '/' :: path, []⟩ := by
  have whole : (uri ⟨fileScheme, some [], '/' :: path, []⟩).text
      = 'f' :: 'i' :: 'l' :: 'e' :: ':' :: '/' :: '/' :: '/' :: path := by
    show fileScheme ++ ':' :: ('/' :: '/' :: [] ++ '/' :: path ++ []) = _
    rw [List.append_nil]
    rfl
  have below : upTo isSuffixMark ('/' :: '/' :: '/' :: path) = ('/' :: '/' :: '/' :: path, []) := by
    apply upTo_of_free
    intro c member
    simp only [List.mem_cons] at member
    rcases member with rfl | rfl | rfl | inPath
    · decide
    · decide
    · decide
    · exact free c inPath
  have scheme : upTo (· == ':') ('f' :: 'i' :: 'l' :: 'e' :: ':' :: '/' :: '/' :: '/' :: path)
      = (fileScheme, ':' :: '/' :: '/' :: '/' :: path) := by
    simp [upTo, fileScheme]
  have body : upTo (fun c => c == '?' || c == '#') ('/' :: '/' :: '/' :: path)
      = ('/' :: '/' :: '/' :: path, []) := below
  have host : upTo (· == '/') ('/' :: path) = ([], '/' :: path) := by simp [upTo]
  rw [whole, ofNormal, scheme]
  simp only [List.drop_succ_cons, List.drop_zero, body, host]

/-- The identifier of a file leads back to a path of the same parts. -/
theorem filePath?_of_ofPath? {path : Text} {locator : Locator}
    (named : ofPath? path = some locator) :
    Path.isAbsolute path = true
      ∧ (ofNormal locator.uri.text).filePath?
        = some ('/' :: Text.joinWith '/' (Path.parts path)) := by
  unfold ofPath? at named
  split at named
  next absolute =>
    refine ⟨absolute, ?_⟩
    obtain rfl := Option.some.inj named
    rw [ofNormal_uri_of_free, filePath?, if_pos]
    · apply congrArg some
      apply Percent.decode_of_decodeBytes
      rw [Percent.decodeBytes_cons_of_ne (by decide), decodeBytes_joinWith, List.flatMap_cons]
    · rfl
    · intro c member
      rcases mem_joinWith member with rfl | ⟨piece, isPiece, inPiece⟩
      · decide
      · obtain ⟨name, -, rfl⟩ := List.mem_map.1 isPiece
        exact not_isSuffixMark_of_mem_encode inPiece
  · cases named

end Locator

scoped instance Scripts.lawfulUris : @LawfulUriLibrary Scripts.uris :=
  @LawfulUriLibrary.mk Scripts.uris
    (fun {path} {uri} named => by
      obtain ⟨locator, isLocator, rfl⟩ := Option.map_eq_some_iff.1 named
      exact (Locator.filePath?_of_ofPath? isLocator).1)
    (fun {path} {uri} named => by
      obtain ⟨locator, isLocator, rfl⟩ := Option.map_eq_some_iff.1 named
      exact ⟨_, (Locator.filePath?_of_ofPath? isLocator).2, Path.parts_joinWith path⟩)

end FragmentLint
