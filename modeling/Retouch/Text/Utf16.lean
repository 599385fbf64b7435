import Retouch.Text.Quoted

/-! Characters as sixteen-bit units, and their escapes with four hexadecimal digits. -/
namespace Retouch.Text

/-- One unit for a character of the basic plane, a high and a low surrogate for any other. -/
def units16 (c : Char) : List Nat :=
  let n := c.toNat
  if n < 0x10000 then [n] else [0xD800 + (n - 0x10000) / 0x400, 0xDC00 + (n - 0x10000) % 0x400]

/-- A unit as a backslash, a `u` and four digits. -/
def unitEscape (unit : Nat) : Text := '\\' :: 'u' :: hexPadded 4 unit

end Retouch.Text
