import FragmentLint.Text.Blank

/-!
Contract: how the text between two tags is trimmed when the tags go away.

A blank run at the front or at the back of the text disappears exactly when it holds a line feed;
a run within one line is kept, because it separates words. The two ends are treated alike and
independently of each other.
-/

namespace FragmentLint.Text

/-- Drops the blank run at the front of a text if that run holds a line feed. -/
def trimFront (text : Text) : Text :=
  if (lead text).contains '\n' then trimLeft text else text

/-- Drops the blank run at the back of a text if that run holds a line feed. -/
def trimBack (text : Text) : Text := (trimFront text.reverse).reverse

/-- Drops the blank runs at both ends of a text that hold a line feed. -/
def trimLines (text : Text) : Text := trimBack (trimFront text)

/-- A text with no blank run at its front keeps its front. -/
theorem trimFront_of_lead_nil {text : Text} (none : lead text = []) : trimFront text = text := by
  simp [trimFront, none]

end FragmentLint.Text
