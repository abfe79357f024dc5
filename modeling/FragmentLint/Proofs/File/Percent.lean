import FragmentLint.File.Percent

/-!
Contract: percent-encoded text can be decoded.

Main statement: if percent signs are among what is encoded, decoding yields the bytes of the text that
was encoded (`decodeBytes_encode_append`), and the text if nothing else is decoded with it
(`decode_of_decodeBytes`).
-/

namespace FragmentLint.Percent

theorem value?_digit {value : Nat} (small : value < 16) : value? (digit value) = some value := by
  have all : ∀ value : Fin 16, value? (digit value) = some value.val := by decide
  exact all ⟨value, small⟩

theorem decodeBytes_encodeByte (byte : UInt8) (rest : Text) :
    decodeBytes (encodeByte byte ++ rest) = byte :: decodeBytes rest := by
  have size : byte.toNat < 256 := byte.toNat_lt
  have high : value? (digit (byte.toNat / 16)) = some (byte.toNat / 16) := value?_digit (by omega)
  have low : value? (digit (byte.toNat % 16)) = some (byte.toNat % 16) := value?_digit (by omega)
  have whole : byte.toNat / 16 * 16 + byte.toNat % 16 = byte.toNat := by omega
  show decodeBytes ('%' :: digit (byte.toNat / 16) :: digit (byte.toNat % 16) :: rest) = _
  rw [decodeBytes, high, low]
  simp only [whole, UInt8.ofNat_toNat]

theorem decodeBytes_flatMap_encodeByte (bytes : List UInt8) (rest : Text) :
    decodeBytes (bytes.flatMap encodeByte ++ rest) = bytes ++ decodeBytes rest := by
  induction bytes with
  | nil => rfl
  | cons byte others inductionHypothesis =>
    rw [List.flatMap_cons, List.append_assoc, decodeBytes_encodeByte, inductionHypothesis,
      List.cons_append]

theorem decodeBytes_cons_of_ne {c : Char} (plain : c ≠ '%') (rest : Text) :
    decodeBytes (c :: rest) = String.utf8EncodeChar c ++ decodeBytes rest := by
  rw [decodeBytes]
  intro high low more isPercent _
  exact plain isPercent

/-- What was encoded, percent signs among it, is decoded to its bytes. -/
theorem decodeBytes_encode_append {reserved : Char → Bool} (percent : reserved '%' = true)
    (text rest : Text) :
    decodeBytes (encode reserved text ++ rest)
      = text.flatMap String.utf8EncodeChar ++ decodeBytes rest := by
  induction text with
  | nil => rfl
  | cons c others inductionHypothesis =>
    unfold encode at inductionHypothesis ⊢
    rw [List.flatMap_cons, List.flatMap_cons, List.append_assoc, List.append_assoc,
      ← inductionHypothesis]
    split
    · exact decodeBytes_flatMap_encodeByte _ _
    next plain =>
      apply decodeBytes_cons_of_ne
      rintro rfl
      exact plain (by rw [percent, Bool.or_true])

/-- A text is decoded to the text that has the same bytes as it has, if there is one. -/
theorem decode_of_decodeBytes {written text : Text}
    (bytes : decodeBytes written = text.flatMap String.utf8EncodeChar) :
    decode written = text := by
  have encoded : (⟨(decodeBytes written).toArray⟩ : ByteArray)
      = (String.ofList text).toByteArray := by
    rw [bytes, String.toByteArray_ofList]
    apply ByteArray.ext
    exact List.data_toByteArray.symm
  have valid : String.fromUTF8? (String.ofList text).toByteArray = some (String.ofList text) := by
    unfold String.fromUTF8?
    rw [dif_pos (String.ofList text).isValidUTF8]
    rfl
  unfold decode
  simp only [encoded, valid, String.toList_ofList]

end FragmentLint.Percent
