import Retouch.Skip
import Retouch.Text.Basic

/-! The identifier that ends at an offset. -/
namespace Retouch.Scan

/-- An ASCII letter or digit, an underscore or a dollar sign. -/
def isNameChar (c : Char) : Bool := c.isAlphanum || c == '_' || c == '$'

/-- The identifier at the end of a text. It does not begin with a digit. -/
def trailingName? (t : Text) : Option Text :=
  let name := (t.reverse.takeWhile isNameChar).reverse
  if name.isEmpty || name.head?.any Char.isDigit then none else some name

/-- The identifier right before an offset of the text, with its start. -/
def nameBefore? (t : Text) (stop : Nat) : Attempt (Option (Nat × Text)) :=
  if stop ≤ t.size then
    .ok do
      let name ← trailingName? (← t.cut? stop).1
      return (stop - Text.size name, name)
  else .error (.fault .outsideText)

end Retouch.Scan
