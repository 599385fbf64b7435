import Retouch.Command.Arguments
import Retouch.Installation
import Retouch.Settings.Load
import Retouch.Search

/-! Running a command: what it reads, what it does, and the lines that it prints. -/
namespace Retouch.Command

variable {m : Type → Type} [Monad m] [Host m]

def stateFolderName : Path := ".minitweak"

/-- The folder of the state: the one that is given, or one in the home folder. -/
def stateFolder (s : Surroundings) (o : Options) : Task m Path :=
  match o.stateFolder, s.homeFolder with
  | some folder, _ => return folder
  | none, some home => return home.join stateFolderName
  | none, none =>
    Task.fail (.ofMessage "cannot determine home directory; pass --state-dir")

def installation (s : Surroundings) (o : Options) : Task m Installation := do
  let target ← (Search.around s o.searchPaths).locate o.target
  return ⟨target, ← stateFolder s o⟩

def settings (o : Options) : Task m Settings :=
  match o.config with
  | none => return .default
  | some p => Settings.load p

/-- The prompts of the file that is given, with the overrides of the folder that is given. -/
def prompts (o : Options) : Task m (List Prompt) := do
  match o.prompts with
  | none => return []
  | some p =>
    let data ← PromptSet.load p
    match o.promptFolder with
    | none => return data.prompts
    | some folder => return (← Prompt.override folder data.prompts).1

def isColored (s : Surroundings) (o : Options) : Bool :=
  match o.color.getD .auto with
  | .always => true
  | .never => false
  | .auto => s.onTerminal

def runApply (s : Surroundings) (o : Options) : Task m Unit := do
  let i ← installation s o
  let settings ← settings o
  let prompts ← prompts o
  let report ← i.apply ⟨settings, prompts, ⟨o.debug, isColored s o⟩⟩ o.dryRun
  if o.json then Task.print (String.ofList report.summary.pretty)
  else
    report.lines.forM Task.print
    Task.print <|
      if o.dryRun then "dry run: " ++ i.target.text ++ " not modified" else "wrote " ++ i.target.text

def runRestore (s : Surroundings) (o : Options) : Task m Unit := do
  let i ← installation s o
  i.restore
  Task.print ("restored " ++ i.target.text)

/-- Ids under a line with their number; nothing, if there are none. -/
def idLines (heading : String) (ids : List String) : List String :=
  if ids.isEmpty then []
  else (heading ++ " (" ++ ids.length.repr ++ "):") :: ids.map ("  " ++ ·)

/-- Which prompts have changed since they were applied, and which have a new reference text. -/
def promptLines (applied reference : Ledger) (ps : List Prompt) : List String :=
  let pending := applied.pending ps
  let new := reference.newReferences ps
  if pending.isEmpty && new.isEmpty then ["prompts up to date"]
  else idLines "prompt changes pending" pending ++
    idLines "reference text changed since last apply" new

def runStatus (s : Surroundings) (o : Options) : Task m Unit := do
  let i ← installation s o
  let state ← i.state
  Task.print ("target  " ++ i.target.text)
  Task.print ("state   " ++ state.label)
  let release := Installation.releaseOf (← Task.read "target" i.target)
  Task.print ("version " ++ (release.map Release.render).getD "unknown")
  let prompts ← prompts o
  if prompts.isEmpty then return
  let (applied, reference) ←
    if state = .notBackedUp then pure (SortedMap.empty, SortedMap.empty)
    else pure (← Ledger.load i.appliedLedger, ← Ledger.load i.referenceLedger)
  (promptLines applied reference prompts).forM Task.print

def run (s : Surroundings) (c : Command) : Task m Unit :=
  match c.name with
  | .apply => runApply s c.options
  | .restore => runRestore s c.options
  | .status => runStatus s c.options
  | .list => Writer.listing.forM Task.print

end Retouch.Command
