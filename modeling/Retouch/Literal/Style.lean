import Retouch.Text.Basic

/-! Styles of string literals, and the style of the literal around an offset. -/
namespace Retouch

/-- How text stands in the source: as code, or in a literal with one of three quotes. -/
inductive Style where
  | plain
  | double
  | single
  | template
  deriving DecidableEq, Repr

namespace Style

def quote? : Style → Option Char
  | plain => none
  | double => some '"'
  | single => some '\''
  | template => some '\x60'

def label : Style → String
  | plain => "plain code"
  | double => "double-quoted"
  | single => "single-quoted"
  | template => "template"

def ofQuote? (b : UInt8) : Option Style :=
  if b == 0x22 then some double
  else if b == 0x27 then some single
  else if b == 0x60 then some template
  else none

/-- An odd run of backslashes comes before, nearest first. -/
def isEscaped (before : List UInt8) : Bool := (before.takeWhile (· == 0x5C)).length % 2 == 1

/-- The style of the nearest quote that is not escaped, in bytes given nearest first. -/
def nearest : (reach : Nat) → List UInt8 → Style
  | 0, _ | _, [] => plain
  | reach + 1, b :: before =>
    match ofQuote? b with
    | some style => if isEscaped before then nearest reach before else style
    | none => nearest reach before

/-- How far back the opening quote is looked for, in bytes. -/
def reach : Nat := 64 * 1024

/-- The style at an offset: that of the nearest quote before it, or code if there is none. -/
def around (t : Text) (offset : Nat) : Style := nearest reach (t.bytes.take offset).reverse

end Style
end Retouch
