import Retouch.Host
import Retouch.Json.Value
import Retouch.Text.Line

/-! The history of runs: a file with one line of JSON for each run, which keeps the newest ones. -/
namespace Retouch

structure HistoryEntry where
  command : String
  target : Path
  release : Option String
  applied : List String
  /-- Ids with the reason of each skip. -/
  skipped : List (String × String)
  promptsApplied : Nat
  promptsUnmatched : Nat
  deriving DecidableEq, Repr

namespace HistoryEntry

/-- An entry that tells nothing but the command. -/
def bare (command : String) (target : Path) : HistoryEntry := ⟨command, target, none, [], [], 0, 0⟩

def toJson (time : String) (e : HistoryEntry) : Json :=
  let release := match e.release with
    | none => []
    | some v => [("version", .string v)]
  .object <| [("timestamp", .string time), ("command", .string e.command),
    ("target", .string e.target.text)] ++ release ++ [
    ("applied", .strings e.applied),
    ("skipped", .array (e.skipped.map fun (id, reason) =>
      .object [("id", .string id), ("reason", .string reason)])),
    ("prompts_applied", .number e.promptsApplied),
    ("prompts_unmatched", .number e.promptsUnmatched)]

end HistoryEntry

namespace History

def fileName : Path := "apply_log.jsonl"

/-- How many entries are kept. -/
def limit : Nat := 500

/-- The newest lines of a history that is too long. -/
def trim? (t : Text) : Option Text :=
  let lines := t.lines
  if lines.length ≤ limit then none
  else some (Text.join ['\n'] (lines.drop (lines.length - limit)) ++ ['\n'])

variable {m : Type → Type} [Monad m] [Host m]

/-- Drops the oldest lines of a history that is too long. -/
def trim (p : Path) : Task m Unit := do
  match trim? (← Task.readText "history log" p) with
  | none => return
  | some kept => Task.write "history log" p kept.bytes

/-- Adds an entry at the end of the history in a folder. -/
def record (folder : Path) (e : HistoryEntry) : Task m Unit := do
  let line := (e.toJson (← Task.ask Host.now)).compact
  Task.createFolders ("creating state directory " ++ folder.text) folder
  let p := folder.join fileName
  Task.request ("writing history log " ++ p.text) (Host.append p (Text.bytes (line ++ ['\n'])))
  trim p

end History
end Retouch
