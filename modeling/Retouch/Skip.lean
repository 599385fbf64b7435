/-! Why a change is left out. A skip is a reason to report; a fault is a request for a part of the
text that does not exist, which no caller expects. -/
namespace Retouch

inductive Skip where
  | noMatch (pattern : String)
  | emptyCapture (pattern group : String)
  | turnedOff
  | otherRelease (release : String)
  | looseDelimiter (delimiter : String) (line column : Nat)
  | badSpan (start stop : Nat)
  | badSettings (detail : String)
  deriving DecidableEq, Repr

namespace Skip

def message : Skip → String
  | noMatch pattern => "pattern not found: " ++ pattern
  | emptyCapture pattern group =>
    "pattern " ++ pattern ++ " matched but capture group " ++ group ++ " was empty"
  | turnedOff => "disabled in settings"
  | otherRelease release => "not supported for target version " ++ release
  | looseDelimiter delimiter line column =>
    "unescaped " ++ delimiter ++ " in replacement at line " ++ line.repr ++ ", column " ++ column.repr
  | badSpan start stop =>
    "edit span " ++ start.repr ++ ".." ++ stop.repr ++ " is outside the source or overlaps another edit"
  | badSettings detail => "invalid settings: " ++ detail

/-- The user asked for these, so they are no sign that the bundle has changed its shape. -/
def isIntended : Skip → Bool
  | turnedOff | otherRelease _ => true
  | _ => false

end Skip

/-- A request for a part of the text that does not exist. -/
inductive Fault where
  | outsideText
  deriving DecidableEq, Repr

/-- What ends an attempt early. -/
inductive Halt where
  | skip (reason : Skip)
  | fault (f : Fault)
  deriving DecidableEq, Repr

abbrev Attempt := Except Halt

namespace Attempt

def skip {α : Type} (reason : Skip) : Attempt α := .error (.skip reason)

/-- A part of the text that has to be there. -/
def demand {α : Type} : Option α → Attempt α
  | some a => .ok a
  | none => .error (.fault .outsideText)

/-- A value whose absence is a reason to skip. -/
def orSkip {α : Type} (value : Option α) (reason : Skip) : Attempt α :=
  match value with
  | some a => .ok a
  | none => skip reason

/-- What came of an attempt, unless it faulted. -/
def settle {α : Type} : Attempt α → Except Fault (Except Skip α)
  | .ok a => .ok (.ok a)
  | .error (.skip reason) => .ok (.error reason)
  | .error (.fault f) => .error f

end Attempt
end Retouch
