import Retouch.Edit.Basic

/-! A change shown as two lines, the old text above the new one, with a little of what surrounds
it. Offsets that miss a boundary are rounded down, and offsets past the end are clamped. -/
namespace Retouch.Diff

/-- Characters of context on each side of a change. -/
def contextWidth : Nat := 20

def resetCode : Text := "\x1b[0m".toList

/-- A text that starts a style again after each reset within it. -/
def restyled (style : Text) : Text → Text
  | [] => []
  | c :: t =>
    let rest := restyled style t
    match Text.after? (c :: t) resetCode with
    | some _ => c :: rest.take 3 ++ style ++ rest.drop 3
    | none => c :: rest

/-- A text in a terminal style given by its code. -/
def painted (code : String) (t : Text) : Text :=
  let style := "\x1b[".toList ++ code.toList ++ "m".toList
  style ++ restyled style t ++ resetCode

def dimmed (t : Text) : Text := painted "2" t

def red (t : Text) : Text := painted "31" t

def green (t : Text) : Text := painted "32" t

/-- Two versions of a text side by side, given what now stands at `start` in the new one. -/
def change (old new injected : Text) (start stop : Nat) (colored : Bool) : Attempt Text := do
  let start := old.boundaryBefore start
  let stop := old.boundaryBefore (max stop start)
  let newStop := new.boundaryBefore (start + injected.size)
  let newStart := min (new.boundaryBefore start) newStop
  let before := Text.takeLast (← .demand (old.slice? 0 start)) contextWidth
  let removed ← .demand (old.slice? start stop)
  let oldAfter := (← Attempt.demand (old.slice? stop old.size)).take contextWidth
  let added ← .demand (new.slice? newStart newStop)
  let newAfter := (← Attempt.demand (new.slice? newStop new.size)).take contextWidth
  return if colored then
    "- ".toList ++ dimmed before ++ red removed ++ dimmed oldAfter ++
      "\n+ ".toList ++ dimmed before ++ green added ++ dimmed newAfter
  else
    "- ".toList ++ before ++ '[' :: removed ++ ']' :: oldAfter ++
      "\n+ ".toList ++ before ++ '[' :: added ++ ']' :: newAfter

/-- How a change is shown for one step of a series of edits. -/
def ofStep (colored : Bool) (s : Edit.Step) : Attempt Text :=
  change s.before s.after s.edit.content s.edit.start s.edit.stop colored

end Retouch.Diff
