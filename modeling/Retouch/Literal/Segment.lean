import Retouch.Skip
import Retouch.Text.Line

/-! Content split into text and holes. A hole opens with a dollar sign and a brace, unless a
backslash escapes the dollar sign, and goes on to the brace that closes it. -/
namespace Retouch

inductive Segment where
  | text (t : Text)
  /-- The expression of a hole and its offset in the content. -/
  | hole (expr : Text) (offset : Nat)
  deriving DecidableEq, Repr

namespace Segment

/-- Where a reader of content stands. Pieces are kept with the latest character first. -/
inductive Reading where
  /-- In text; a backslash that is not itself escaped comes right before. -/
  | text (piece : Text) (escaped : Bool)
  /-- In a hole whose dollar sign stands at `start`, within `depth` braces. -/
  | hole (expr : Text) (depth start : Nat)
  deriving DecidableEq, Repr

def ofPiece (piece : Text) : List Segment := if piece.isEmpty then [] else [.text piece.reverse]

/-- The segments from a position on; the offset of an unclosed hole is the error. -/
def splitFrom (reading : Reading) (pos : Nat) : Text → Except Nat (List Segment)
  | [] =>
    match reading with
    | .text piece _ => .ok (ofPiece piece)
    | .hole _ _ start => .error start
  | c :: t =>
    let after := pos + c.utf8Size
    match reading with
    | .text piece escaped =>
      if c = '$' && !escaped && t.head? = some '\x7b' then
        do return ofPiece piece ++ (← splitFrom (.hole [] 0 pos) after t)
      else splitFrom (.text (c :: piece) (c = '\\' && !escaped)) after t
    | .hole expr depth start =>
      if c = '\x7b' then
        splitFrom (.hole (if depth = 0 then expr else c :: expr) (depth + 1) start) after t
      else if c = '\x7d' then
        if depth ≤ 1 then
          do return .hole expr.reverse (start + 2) :: (← splitFrom (.text [] false) after t)
        else splitFrom (.hole (c :: expr) (depth - 1) start) after t
      else splitFrom (.hole (c :: expr) depth start) after t

def unescaped (content : Text) (offset : Nat) (delimiter : String) : Skip :=
  let p := content.place offset
  .looseDelimiter delimiter p.line p.column

/-- The text and the holes of some content, in order. -/
def split (content : Text) : Attempt (List Segment) :=
  match splitFrom (.text [] false) 0 content with
  | .ok segments => .ok segments
  | .error offset => .skip (unescaped content offset "$\x7b")

end Segment
end Retouch
