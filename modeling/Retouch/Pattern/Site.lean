import Retouch.Pattern.Basic
import Retouch.Skip

/-! Sites: places in a text that a named pattern finds, with the identifiers read there. A search
either finds the whole text, or looks for the match nearest to an anchor. -/
namespace Retouch

/-- A span of a text with the identifiers that were captured for it. -/
structure Site where
  span : Span
  names : List Text
  deriving DecidableEq, Repr

namespace Site

/-- A site whose ends are boundaries of the text, in order. -/
def of? (t : Text) (start stop : Nat) (names : List Text) : Option Site :=
  if (t.slice? start stop).isSome then some ⟨⟨start, stop⟩, names⟩ else none

def text (site : Site) (t : Text) : Attempt Text :=
  .demand (t.slice? site.span.start site.span.stop)

def captured (t : Text) (name : String) : (group : Nat) → List Span → Attempt (List Text)
  | _, [] => .ok []
  | group, s :: rest => do
    let found ← Attempt.demand (t.slice? s.start s.stop)
    if found.isEmpty then .skip (.emptyCapture name group.repr)
    return found :: (← captured t name (group + 1) rest)

/-- The site of a match. Every capture has to have text. -/
def ofMatch (t : Text) (name : String) (m : Match) : Attempt Site := do
  let names ← captured t name 1 m.captures
  .orSkip (of? t m.span.start m.span.stop names) (.emptyCapture name "0")

/-- The first match of a pattern. -/
def find (t : Text) (name : String) (p : Pattern) : Attempt Site := do
  ofMatch t name (← .orSkip (p.find? t) (.noMatch name))

/-- The first two captures of a match have the same text. -/
def isTwin (t : Text) (m : Match) : Attempt Bool := do
  let first ← .demand m.captures[0]?
  let second ← .demand m.captures[1]?
  return (← Attempt.demand (t.slice? first.start first.stop)) =
    (← Attempt.demand (t.slice? second.start second.stop))

/-- The first match whose first two captures have the same text. -/
def findTwin (t : Text) (name : String) (p : Pattern) : Attempt Site := do
  ofMatch t name (← .orSkip (← (p.matchesIn t).findM? (isTwin t)) (.noMatch name))

/-- The `index`-th identifier of the site. -/
def name (site : Site) (pattern : String) (index : Nat) : Attempt Text :=
  .orSkip site.names[index]? (.emptyCapture pattern (index + 1).repr)

end Site

/-- How far a search reaches to either side of its anchor, in bytes. -/
structure Reach where
  before : Nat
  after : Nat
  deriving DecidableEq, Repr

/-- An anchor and the match nearest to it. -/
structure Anchored where
  anchor : Span
  found : Match
  deriving DecidableEq, Repr

namespace Anchored

/-- Bytes between a span and the anchor, zero if they overlap. -/
def distance (anchor s : Span) : Nat :=
  if s.stop ≤ anchor.start then anchor.start - s.stop
  else if anchor.stop ≤ s.start then s.start - anchor.stop
  else 0

/-- The element with the least key, the first of several. -/
def leastBy {α : Type} (key : α → Nat) : List α → Option α
  | [] => none
  | a :: rest =>
    match leastBy key rest with
    | some b => if key b < key a then some b else some a
    | none => some a

/-- The match nearest to an anchor, of those that a search has within reach of it. -/
def nearest? (t : Text) (search : Text → List Match) (reach : Reach) (anchor : Span) :
    Attempt (Option Anchored) := do
  let low := t.boundaryBefore (anchor.start - reach.before)
  let high := t.boundaryAfter (anchor.stop + reach.after)
  let slice ← Attempt.demand (t.slice? low high)
  let found := (search slice).map (·.shift low)
  return (leastBy (distance anchor ·.span) found).map (⟨anchor, ·⟩)

/-- The nearest match of the first occurrence of the anchor that has one within reach. -/
def findBy (search : Text → List Match) (t : Text) (name : String) (anchor : Text) (reach : Reach) :
    Attempt Anchored := do
  let at? (start : Nat) := nearest? t search reach ⟨start, start + anchor.size⟩
  .orSkip (← (t.occurrences anchor).findSomeM? at?) (.noMatch name)

/-- The nearest match of a pattern. -/
def find (t : Text) (name : String) (anchor : Text) (reach : Reach) (p : Pattern) :
    Attempt Anchored :=
  findBy p.matchesIn t name anchor reach

/-- The text of a capture. -/
def capture? (a : Anchored) (t : Text) (index : Nat) : Attempt (Option Text) :=
  match a.found.captures[index]? with
  | some s => do return some (← Attempt.demand (t.slice? s.start s.stop))
  | none => .ok none

/-- The span of a capture. -/
def captureSpan (a : Anchored) (name : String) (index : Nat) : Attempt Span :=
  .orSkip a.found.captures[index]? (.emptyCapture name (index + 1).repr)

/-- The text of a capture that has to be there. -/
def capture (a : Anchored) (t : Text) (name : String) (index : Nat) : Attempt Text := do
  .orSkip (← a.capture? t index) (.emptyCapture name (index + 1).repr)

end Anchored
end Retouch
