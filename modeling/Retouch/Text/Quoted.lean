import Retouch.Text.Printable
import Retouch.Text.Basic

/-! Quoted form of a text in a diagnostic: double quotes around it, short escapes for the common
controls, and code points in braces for characters without a form of their own. -/
namespace Retouch.Text

/-- Digits of a number in lower-case hexadecimal. -/
def hex (n : Nat) : Text := Nat.toDigits 16 n

/-- A number in lower-case hexadecimal, padded with zeros. -/
def hexPadded (width n : Nat) : Text :=
  let digits := hex n
  List.replicate (width - digits.length) '0' ++ digits

def quotedChar (c : Char) : Text :=
  match c with
  | '"' => ['\\', '"']
  | '\\' => ['\\', '\\']
  | '\n' => ['\\', 'n']
  | '\r' => ['\\', 'r']
  | '\t' => ['\\', 't']
  | '\x00' => ['\\', '0']
  | c =>
    if isExtending c || !isPrintable c then ['\\', 'u', '\x7b'] ++ hex c.toNat ++ ['\x7d'] else [c]

def quoted (t : Text) : Text := '"' :: t.flatMap quotedChar ++ ['"']

end Retouch.Text
