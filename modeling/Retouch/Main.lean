import Retouch.Command.Run
import Retouch.Command.Usage
import Std.Time.Format

/-! The program: a command from the arguments runs on the machine at hand. -/
namespace Retouch

namespace LocalMachine

def diskError : IO.Error → DiskError
  | .noFileOrDirectory .. | .noSuchThing .. => .notFound
  | .permissionDenied .. => .permissionDenied
  | .alreadyExists .. => .alreadyExists
  | .inappropriateType _ code _ => if code = 21 then .isADirectory else .notADirectory
  | .invalidArgument .. => .invalidInput
  | _ => .other

def attempt {α : Type} (action : IO α) : IO (Except DiskError α) := do
  try return .ok (← action)
  catch e => return .error (diskError e)

def kind? (p : Path) : IO (Option Kind) := do
  try
    match (← (← IO.FS.realPath p.text).metadata).type with
    | .dir => return some .folder
    | .file => return some .file
    | _ => return none
  catch _ => return none

def names (p : Path) : IO (List String) := do
  try
    let entries ← (← IO.FS.realPath p.text).readDir
    return (entries.toList.map (·.fileName)).mergeSort fun a b => a ≤ b
  catch _ => return []

def readBytes (p : Path) : IO (List UInt8) := return (← IO.FS.readBinFile p.text).toList

def packed (bytes : List UInt8) : ByteArray := ⟨bytes.toArray⟩

/-- Permissions are not told by the system, so a script that names its interpreter is taken for one
that everybody may run. -/
def mode? (p : Path) : IO (Option Mode) := do
  match ← attempt (readBytes p) with
  | .ok (0x23 :: 0x21 :: _) => return some 0o755
  | _ => return none

def accessRight (bits : Nat) : IO.AccessRight := ⟨bits.testBit 2, bits.testBit 1, bits.testBit 0⟩

def setMode (p : Path) (mode : Mode) : IO Unit :=
  IO.setAccessRights p.text
    ⟨accessRight (mode >>> 6), accessRight (mode >>> 3), accessRight mode⟩

def copy (source target : Path) : IO Unit := do
  IO.FS.writeBinFile target.text (← IO.FS.readBinFile source.text)
  match ← mode? source with
  | some mode => setMode target mode
  | none => return

/-- The date and time at Greenwich. -/
def now : IO String := do
  let wall := Std.Time.WallTime.ofTimestamp (← Std.Time.Timestamp.now) .zero
  return (Std.Time.PlainDateTime.ofWallTime wall).format "uuuu-MM-dd'T'HH:mm:ss.SSSSSSSSS" ++ "Z"

instance : Host IO where
  kind? := kind?
  names := names
  read p := attempt (readBytes p)
  write p bytes := attempt (IO.FS.writeBinFile p.text (packed bytes))
  append p bytes := attempt (IO.FS.withFile p.text .append (·.write (packed bytes)))
  sync p := attempt (IO.FS.withFile p.text .append (·.flush))
  copy source target := attempt (copy source target)
  createFolder p := attempt (IO.FS.createDir p.text)
  rename old new := attempt (IO.FS.rename old.text new.text)
  remove p := attempt (IO.FS.removeFile p.text)
  mode? := mode?
  setMode p mode := attempt (setMode p mode)
  fresh := return (← IO.monoNanosNow).repr
  now := now
  print line := IO.println line
  report message := IO.eprintln (String.ofList message)

def surroundings : IO Surroundings := do
  return ⟨← IO.getEnv "HOME", ← IO.getEnv "USERPROFILE", ← IO.getEnv Search.targetVariable,
    ← (← IO.getStderr).isTty⟩

end LocalMachine

/-- Runs a command and tells whether it succeeded. -/
def Command.runLocally (c : Command) : IO UInt32 := do
  match ← (run (m := IO) (← LocalMachine.surroundings) c).run with
  | .ok () => return 0
  | .error f =>
    IO.eprintln ("Error: " ++ f.report)
    return 1

end Retouch

def main (args : List String) : IO UInt32 := do
  match Retouch.Command.ofArguments args with
  | .ok c => c.runLocally
  | .error stop =>
    let put (line : String) : IO Unit := if stop.isAnswer then IO.println line else IO.eprintln line
    stop.lines.forM put
    return if stop.isAnswer then 0 else 2
