import Retouch.Bundle
import Retouch.Cycle
import Retouch.History
import Retouch.Prompt.Load

/-! A bundle with the state that is kept about it: a backup of its pristine bytes, the hashes of prompts,
and the history of runs. Every cycle starts from the backup and writes the bundle once. -/
namespace Retouch

structure Installation where
  target : Path
  /-- The folder of the state. -/
  folder : Path
  deriving DecidableEq, Repr

inductive Installation.State where
  | notBackedUp
  | clean
  | patched
  deriving DecidableEq, Repr

def Installation.State.label : Installation.State → String
  | notBackedUp => "not backed up"
  | clean => "clean"
  | patched => "patched"

namespace Installation

def backup (i : Installation) : Path := i.folder.join "cli.js.backup"

/-- Hashes of the prompt texts that were applied last. -/
def appliedLedger (i : Installation) : Path := i.folder.join "applied_hashes.json"

/-- Hashes of the reference texts at that time. -/
def referenceLedger (i : Installation) : Path := i.folder.join "original_hashes.json"

variable {m : Type → Type} [Monad m] [Host m]

def state (i : Installation) : Task m State := do
  if !(← Task.isFile i.backup) then return .notBackedUp
  let pristine ← Task.read "backup" i.backup
  let current ← Task.read "target" i.target
  return if pristine = current then .clean else .patched

/-- Copies a file, with the folder that it goes to. -/
def copyWithFolder (source target : Path) : Task m Unit := do
  Task.createFolderOf target
  Task.request ("copying " ++ source.text ++ " to " ++ target.text) (Host.copy source target)

/-- The release that the bytes of a file name, whatever else they are. -/
def releaseOf (bytes : List UInt8) : Option Release := Release.ofBanner? (Utf8.decodeLossy bytes)

/-- Sees to a backup of the bundle. A backup of another release is replaced, if the bundle tells
its release at all. -/
def keepBackup (i : Installation) : Task m Unit := do
  if !(← Task.isFile i.backup) then copyWithFolder i.target i.backup
  else
    let current ← Task.read "target" i.target
    let pristine ← Task.read "backup" i.backup
    let release := releaseOf current
    if release.isSome && release ≠ releaseOf pristine then copyWithFolder i.target i.backup

/-- Puts new bytes in the place of a file. The bytes are written to a new file beside it, which then
takes over the name and the permissions; so other names of the old file keep the old bytes. -/
def replaceFile (p : Path) (bytes : List UInt8) : Task m Unit := do
  let mode ← Task.ask (Host.mode? p)
  let p' := (p.folder?.getD ".").join ⟨".minitweak-tmp-" ++ (← Task.ask Host.fresh)⟩
  Task.request ("creating temp file " ++ p'.text) (Host.write p' [])
  Task.request ("writing temp file " ++ p'.text) (Host.append p' bytes)
  Task.request ("syncing temp file " ++ p'.text) (Host.sync p')
  match mode with
  | none => pure ()
  | some mode => Task.request ("copying permissions to " ++ p'.text) (Host.setMode p' mode)
  match ← Task.ask (Host.rename p' p) with
  | .ok () => return
  | .error e =>
    let _ ← Task.ask (Host.remove p')
    Task.fail ⟨["replacing " ++ p.text], some (.disk e)⟩

/-- Where the pristine bytes are read from. A dry run makes no backup. -/
def source (i : Installation) (dryRun : Bool) : Task m Path := do
  if dryRun then return if ← Task.isFile i.backup then i.backup else i.target
  else
    i.keepBackup
    return i.backup

def decode (p : Path) (bytes : List UInt8) : Except Failure Bundle :=
  (Bundle.decode bytes).mapError fun e => ⟨["decoding " ++ p.text, e.message], none⟩

/-- Runs the cycle and tells about its changes. -/
def runOn (c : Cycle) (t : Text) : Task m (Text × Cycle.Report) := do
  let (done, report) ← Task.ofExcept ((c.run t).mapError Failure.ofFault)
  done.messages.forM fun message => Task.ask (Host.report message)
  return (done.text, report)

/-- Records the hashes of the prompts that are in the bundle now. -/
def recordPrompts (ps : List Prompt) (outcomes : List (String × Prompt.Outcome))
    (applied reference : Ledger) : Ledger × Ledger :=
  (ps.zip outcomes).foldl (fun (applied, reference) (p, _, outcome) =>
    match outcome with
    | .applied | .unchanged =>
      (applied.record p.id p.customHash, reference.record p.id (some p.referenceHash))
    | .notMatched | .skipped _ => (applied, reference)) (applied, reference)

def savePrompts (i : Installation) (ps : List Prompt) (r : Cycle.Report) : Task m Unit := do
  if ps.isEmpty then return
  let applied ← Ledger.load i.appliedLedger
  let reference ← Ledger.load i.referenceLedger
  let (applied, reference) := recordPrompts ps r.prompts applied reference
  applied.save i.appliedLedger
  reference.save i.referenceLedger

/-- What the history tells about a cycle. -/
def historyEntry (i : Installation) (r : Cycle.Report) : HistoryEntry where
  command := "apply"
  target := i.target
  release := r.releaseText
  applied := r.applied
  skipped := r.skipped.map fun (id, reason) => (id, reason.message)
  promptsApplied := r.countPrompts (· = .applied)
  promptsUnmatched := r.unmatched

/-- One cycle from the pristine bytes. A dry run writes nothing. -/
def apply (i : Installation) (c : Cycle) (dryRun : Bool) : Task m Cycle.Report := do
  let source ← i.source dryRun
  let bundle ← Task.ofExcept (decode source (← Task.read "pristine source" source))
  let (text, report) ← runOn c bundle.text
  if dryRun then return report
  replaceFile i.target (Bundle.encode { bundle with text })
  i.savePrompts c.prompts report
  History.record i.folder (i.historyEntry report)
  return report

/-- Puts the pristine bytes back and forgets which prompts were applied. -/
def restore (i : Installation) : Task m Unit := do
  if !(← Task.isFile i.backup) then
    Task.fail (.ofMessage ("no backup at " ++ i.backup.text ++ "; nothing to restore"))
  replaceFile i.target (← Task.read "backup" i.backup)
  let _ ← Ledger.load (m := m) i.appliedLedger
  Ledger.save .empty i.appliedLedger
  History.record i.folder (.bare "restore" i.target)

end Installation
end Retouch
