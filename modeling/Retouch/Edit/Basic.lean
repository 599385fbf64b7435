import Retouch.Pattern.Site

/-! Edits of a text: the replacement of one span by new content. Edits of one text are checked
together and then applied from the last to the first, so that none moves the span of another. -/
namespace Retouch

structure Edit where
  start : Nat
  stop : Nat
  content : Text
  deriving DecidableEq, Repr

namespace Edit

def replace (site : Site) (content : Text) : Edit := ⟨site.span.start, site.span.stop, content⟩

def insert (offset : Nat) (content : Text) : Edit := ⟨offset, offset, content⟩

def delete (site : Site) : Edit := replace site []

/-- The ends of the span are boundaries of the text, in order. -/
def fits (e : Edit) (t : Text) : Bool := (t.slice? e.start e.stop).isSome

/-- The text with the span replaced. -/
def splice? (e : Edit) (t : Text) : Option Text :=
  match t.cut? e.start, t.cut? e.stop with
  | some (before, _), some (_, after) =>
    if e.start ≤ e.stop then some (before ++ e.content ++ after) else none
  | _, _ => none

def invalid (e : Edit) : Skip := .badSpan e.start e.stop

/-- The text with the span replaced, or a skip when the span does not fit. -/
def apply (e : Edit) (t : Text) : Attempt Text := .orSkip (e.splice? t) e.invalid

/-- Later spans come first; of spans with one start, the one that ends later. -/
def isBefore (a b : Edit) : Bool := b.start < a.start || (b.start == a.start && b.stop ≤ a.stop)

def insertSorted (e : Edit) : List Edit → List Edit
  | [] => [e]
  | d :: rest => if e.isBefore d then e :: d :: rest else d :: insertSorted e rest

/-- Edits in the order in which they are applied. Those of one span keep their order. -/
def ordered (es : List Edit) : List Edit := es.foldr insertSorted []

/-- Each edit fits the text and ends before the edit applied before it starts. -/
def check (t : Text) : (limit : Nat) → List Edit → Attempt Unit
  | _, [] => .ok ()
  | limit, e :: rest =>
    if e.fits t && e.stop ≤ limit then check t e.start rest else .skip e.invalid

/-- One edit on its way: the text before it and after it. -/
structure Step where
  before : Text
  edit : Edit
  after : Text
  deriving DecidableEq, Repr

def stepsFrom (t : Text) : List Edit → Attempt (List Step)
  | [] => .ok []
  | e :: rest => do
    let after ← e.apply t
    return ⟨t, e, after⟩ :: (← stepsFrom after rest)

/-- The edits of a text one after the other. -/
def steps (t : Text) (es : List Edit) : Attempt (List Step) := do
  check t t.size (ordered es)
  stepsFrom t (ordered es)

/-- The text after all its edits. -/
def applyAll (t : Text) (es : List Edit) : Attempt Text := do
  return ((← steps t es).getLast?.map (·.after)).getD t

end Edit
end Retouch
