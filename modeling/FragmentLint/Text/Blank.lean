import FragmentLint.Text

/-!
Contract: the characters with the Unicode property `White_Space`, and the blank runs at the two
ends of a text.

The table has 25 characters. Main statements: a text is the blank run at its front followed by the
text trimmed there, and the text trimmed at its back followed by the blank run there
(`lead_append_trimLeft`, `trimRight_append_trail`).
-/

namespace FragmentLint.Text

/-- Whether a character has the Unicode property `White_Space`. -/
def isBlankChar (c : Char) : Bool :=
  let code := c.toNat
  (9 ≤ code && code ≤ 13) || code == 0x20 || code == 0x85 || code == 0xA0 || code == 0x1680
    || (0x2000 ≤ code && code ≤ 0x200A) || code == 0x2028 || code == 0x2029 || code == 0x202F
    || code == 0x205F || code == 0x3000

def isBlank (text : Text) : Bool := text.all isBlankChar

def lead (text : Text) : Text := text.takeWhile isBlankChar

/-- A text without the blank characters at its front. -/
def trimLeft (text : Text) : Text := text.dropWhile isBlankChar

def trail (text : Text) : Text := (lead text.reverse).reverse

/-- A text without the blank characters at its back. -/
def trimRight (text : Text) : Text := (trimLeft text.reverse).reverse

/-- A text is the blank run at its front and what follows it. -/
theorem lead_append_trimLeft (text : Text) : lead text ++ trimLeft text = text :=
  List.takeWhile_append_dropWhile

/-- A text is what precedes the blank run at its back and that run. -/
theorem trimRight_append_trail (text : Text) : trimRight text ++ trail text = text := by
  have whole := congrArg List.reverse (lead_append_trimLeft text.reverse)
  simpa [trimRight, trail] using whole

end FragmentLint.Text
