import Retouch.Text.Basic
import Retouch.Text.Blank
import Retouch.Text.Word

/-! Patterns over text. A pattern takes the cursors where it may start to those where it can end,
the preferred one first and one for each position: nothing that follows can tell two ways to the
same position apart. -/
namespace Retouch

inductive CharClass where
  | oneOf (cs : List Char)
  | noneOf (cs : List Char)
  | digit
  | blank
  | word
  /-- A word character, a dollar sign or one of some others. -/
  | name (others : List Char)
  deriving DecidableEq, Repr

def CharClass.contains : CharClass → Char → Bool
  | oneOf cs, c => cs.contains c
  | noneOf cs, c => !cs.contains c
  | digit, c => isDigit c
  | blank, c => isBlank c
  | word, c => isWord c
  | name others, c => c == '$' || isWord c || others.contains c

inductive Pattern where
  | literal (t : Text)
  /-- As many members of a class as there are, at least `least` and at most `most`. -/
  | many (cls : CharClass) (least : Nat) (most : Option Nat)
  | seq (p q : Pattern)
  /-- The first alternative is preferred. -/
  | alt (p q : Pattern)
  /-- Records what the pattern covers. -/
  | capture (p : Pattern)
  | lineStart
  /-- Between a word character and anything else, the ends of the text included. -/
  | wordEdge
  deriving DecidableEq, Repr

/-- A position in a text, with the spans captured on the way to it. -/
structure Cursor where
  previous : Option Char
  pos : Nat
  rest : Text
  captures : List Span
  deriving DecidableEq, Repr

namespace Cursor

def next? (c : Cursor) : Option (Char × Cursor) :=
  match c.rest with
  | [] => none
  | x :: rest => some (x, { c with previous := some x, pos := c.pos + x.utf8Size, rest })

/-- The cursor after a literal text, if it stands here. -/
def after? (c : Cursor) : Text → Option Cursor
  | [] => some c
  | x :: t =>
    match c.next? with
    | some (y, d) => if x = y then after? d t else none
    | none => none

/-- The cursors after `least` to `most` members of a class that start here, the farthest first. -/
def run (cls : CharClass) (least : Nat) (most : Option Nat) (c : Cursor) : List Cursor :=
  go c.rest c.pos least most (if least = 0 then [c] else [])
where
  go (rest : Text) (pos least : Nat) (most : Option Nat) (found : List Cursor) : List Cursor :=
    match rest with
    | [] => found
    | x :: rest =>
      if most ≠ some 0 && cls.contains x then
        let d : Cursor := ⟨some x, pos + x.utf8Size, rest, c.captures⟩
        go rest (pos + x.utf8Size) (least - 1) (most.map (· - 1))
          (if least ≤ 1 then d :: found else found)
      else found

/-- Captures what lies between a position and the cursor. -/
def record (start : Nat) (c : Cursor) : Cursor :=
  { c with captures := c.captures ++ [⟨start, c.pos⟩] }

def isLineStart (c : Cursor) : Bool := c.previous.all (· == '\n')

def isWordEdge (c : Cursor) : Bool := c.previous.any isWord != c.rest.head?.any isWord

end Cursor

namespace Pattern

/-- One cursor for each position, the first of the list. -/
def distinct (cs : List Cursor) : List Cursor := cs.eraseDupsBy (·.pos == ·.pos)

/-- The cursors to which a step leads from some cursors. From one cursor a step leads to each
position once. -/
def spread (step : Cursor → List Cursor) : List Cursor → List Cursor
  | [c] => step c
  | cs => distinct (cs.flatMap step)

/-- Where the pattern can end when it starts at one of the cursors, in order of preference. -/
def advance : Pattern → List Cursor → List Cursor
  | literal t, cs => cs.filterMap (·.after? t)
  | many cls least most, cs => spread (·.run cls least most) cs
  | seq p q, cs =>
    match advance p cs with
    | [] => []
    | d :: ds => advance q (d :: ds)
  | alt p q, cs => spread (fun c => distinct (advance p [c] ++ advance q [c])) cs
  | capture p, cs => spread (fun c => (advance p [c]).map (·.record c.pos)) cs
  | lineStart, cs => cs.filter (·.isLineStart)
  | wordEdge, cs => cs.filter (·.isWordEdge)

/-- Patterns one after the other. -/
def all : List Pattern → Pattern
  | [] => literal []
  | [p] => p
  | p :: ps => seq p (all ps)

/-- The first of the patterns that leads on. -/
def any : List Pattern → Pattern
  | [] => many (.oneOf []) 1 (some 1)
  | [p] => p
  | p :: ps => alt p (any ps)

/-- A text that stands for itself. -/
def text (s : String) : Pattern := literal s.toList

/-- One member of a class or more. -/
def oneOrMore (cls : CharClass) : Pattern := many cls 1 none

/-- Any number of members of a class. -/
def anyNumber (cls : CharClass) : Pattern := many cls 0 none

/-- An identifier, captured. -/
def nameGroup : Pattern := capture (oneOrMore (.name []))

end Pattern

/-- A match with what it captures. No pattern that is searched for captures within an alternative, so every group
takes part in each of its matches and has a span. -/
structure Match where
  span : Span
  /-- The captured spans in the order in which their captures ended. -/
  captures : List Span
  deriving DecidableEq, Repr

def Match.shift (offset : Nat) (m : Match) : Match :=
  ⟨m.span.shift offset, m.captures.map (·.shift offset)⟩

namespace Pattern

/-- The preferred match that starts at a cursor. -/
def matchHere? (p : Pattern) (c : Cursor) : Option Match :=
  (p.advance [c]).head?.map fun d => ⟨⟨c.pos, d.pos⟩, d.captures⟩

/-- Matches from a position on, when the match before ended at `last`: none starts before `last`,
and an empty one not at `last` either. -/
def matchesFrom (p : Pattern) (last : Option Nat) (previous : Option Char) (pos : Nat) :
    Text → List Match
  | [] => (accepted p last previous pos []).toList
  | c :: rest =>
    match accepted p last previous pos (c :: rest) with
    | some m => m :: matchesFrom p m.span.stop c (pos + c.utf8Size) rest
    | none => matchesFrom p last c (pos + c.utf8Size) rest
where
  accepted (p : Pattern) (last : Option Nat) (previous : Option Char) (pos : Nat) (rest : Text) :
      Option Match :=
    if last.any (pos < ·) then none
    else (p.matchHere? ⟨previous, pos, rest, []⟩).filter
      fun m => !(m.span.stop == pos && last == some pos)

/-- The matches in a text, leftmost first and without overlap. -/
def matchesIn (p : Pattern) (t : Text) : List Match := p.matchesFrom none none 0 t

/-- The leftmost match in a text. -/
def find? (p : Pattern) (t : Text) : Option Match := (p.matchesIn t).head?

end Pattern
end Retouch
