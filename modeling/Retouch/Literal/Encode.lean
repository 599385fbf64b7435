import Retouch.Literal.Style
import Retouch.Text.Utf16

/-! Text written inside a literal: escapes for the style, and escapes for all that is not ASCII. -/
namespace Retouch.Literal

/-- A character of a literal, given the one after it. In a template a line feed stays, and a dollar
sign is escaped only where it would open a hole. -/
def encodeChar (style : Style) (c : Char) (next : Option Char) : Text :=
  match style, c with
  | .plain, c => [c]
  | _, '\\' => ['\\', '\\']
  | .template, '\n' => ['\n']
  | _, '\n' => ['\\', 'n']
  | _, '\r' => ['\\', 'r']
  | .double, '"' => ['\\', '"']
  | .single, '\'' => ['\\', '\'']
  | .template, '\x60' => ['\\', '\x60']
  | .template, '$' => if next = some '\x7b' then ['\\', '$'] else ['$']
  | _, c => [c]

/-- The text as it stands in a literal of the style. -/
def encode (style : Style) : Text → Text
  | [] => []
  | c :: t => encodeChar style c t.head? ++ encode style t

/-- Writes every character beyond ASCII as escapes of its sixteen-bit units. -/
def toAscii (t : Text) : Text :=
  t.flatMap fun c => if c.toNat < 128 then [c] else (Text.units16 c).flatMap Text.unitEscape

def isHexDigit (c : Char) : Bool :=
  c.isDigit || ('a' ≤ c && c ≤ 'f') || ('A' ≤ c && c ≤ 'F')

/-- An escape with four hexadecimal digits starts the text. -/
def startsWithEscape : Text → Bool
  | '\\' :: 'u' :: a :: b :: c :: d :: _ => isHexDigit a && isHexDigit b && isHexDigit c && isHexDigit d
  | _ => false

/-- An escape with four hexadecimal digits occurs, as where all text beyond ASCII is escaped. -/
def usesEscapes : Text → Bool
  | [] => false
  | c :: t => startsWithEscape (c :: t) || usesEscapes t

end Retouch.Literal
