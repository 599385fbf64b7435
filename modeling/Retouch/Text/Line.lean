import Retouch.Text.Basic

/-! Lines of a text, and the line and column of an offset. -/
namespace Retouch

/-- A place in a text; both counts start at one, and columns count characters. -/
structure Place where
  line : Nat
  column : Nat
  deriving DecidableEq, Repr

namespace Text

def dropReturn (reversed : Text) : Text :=
  match reversed with
  | '\r' :: rest => rest.reverse
  | line => line.reverse

/-- Lines without their ends, a line feed with an optional carriage return before it. No empty line
follows a final line feed, and a carriage return at the end of the text stays. -/
def lines (t : Text) : List Text := go [] t
where
  go (line : Text) : Text → List Text
    | [] => if line.isEmpty then [] else [line.reverse]
    | '\n' :: t => dropReturn line :: go [] t
    | c :: t => go (c :: line) t

/-- The place of an offset, rounded down to a character boundary within the text. -/
def place (t : Text) (offset : Nat) : Place := go 0 ⟨1, 1⟩ t
where
  go (pos : Nat) (here : Place) : Text → Place
    | [] => here
    | c :: t =>
      if pos + c.utf8Size ≤ offset then
        go (pos + c.utf8Size) (if c = '\n' then ⟨here.line + 1, 1⟩ else ⟨here.line, here.column + 1⟩) t
      else here

end Text
end Retouch
