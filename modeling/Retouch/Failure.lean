import Retouch.Disk
import Retouch.Json.Read
import Retouch.Skip

/-! What makes a command fail: a message, with a message for each thing that was being done when it
arose, and the cause beneath, if there is one. -/
namespace Retouch

inductive Cause where
  | json (e : Json.ReadError)
  | yaml
  | disk (e : DiskError)
  deriving DecidableEq, Repr

def Cause.message : Cause → String
  | json e => "JSON: " ++ e.message
  | yaml => "YAML: not what was expected"
  | disk e => e.message

structure Failure where
  /-- The outermost message first. -/
  messages : List String
  cause : Option Cause
  deriving DecidableEq, Repr

namespace Failure

def ofMessage (message : String) : Failure := ⟨[message], none⟩

/-- The failure as it is seen by who was doing something else. -/
def within (message : String) (f : Failure) : Failure := { f with messages := message :: f.messages }

/-- A fault is the end of a command like any other failure. -/
def ofFault : Fault → Failure
  | .outsideText => ofMessage "a part of the text that does not exist was asked for"

def message (f : Failure) : String := ": ".intercalate f.messages

/-- The messages with what is known about the cause. -/
def report (f : Failure) : String :=
  ": ".intercalate (f.messages ++ (f.cause.map Cause.message).toList)

end Failure

end Retouch
