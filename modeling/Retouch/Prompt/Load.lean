import Retouch.Host
import Retouch.Json.Decode
import Retouch.Prompt.Ledger
import Retouch.Prompt.Override

/-! Reading prompts, their overrides and their hashes from files. -/
namespace Retouch

variable {m : Type → Type} [Monad m] [Host m]

namespace PromptSet

/-- The first prompt with a defect is reported. -/
def check (d : PromptSet) : Except Failure PromptSet :=
  match d.prompts.findSome? fun p => p.defect?.map (·.message p.id) with
  | some message => .error (.ofMessage message)
  | none => .ok d

def parse (p : Path) (bytes : List UInt8) : Except Failure PromptSet :=
  match Json.decode schema bytes with
  | .ok d => d.check
  | .error e => .error ⟨["parsing prompt data " ++ p.text], some (.json e)⟩

def load (p : Path) : Task m PromptSet := do
  Task.ofExcept (parse p (← Task.read "prompt data" p))

end PromptSet

namespace Prompt

/-- The override of a prompt, if there is a file for it. -/
def loadOverride (folder : Path) (p : Prompt) : Task m (Option Override) := do
  let path := folder.join ⟨p.id ++ ".md"⟩
  if !(← Task.isFile path) then return none
  let text ← Task.readText "prompt override" path
  let within := Failure.within ("parsing prompt override " ++ path.text)
  return some (← Task.ofExcept ((Override.parse text).mapError within))

/-- The prompts with their overrides, and how many there are. -/
def loadOverrides (folder : Path) : List Prompt → Task m (List Prompt × Nat)
  | [] => return ([], 0)
  | p :: ps => do
    let found ← loadOverride folder p
    let (rest, count) ← loadOverrides folder ps
    match found with
    | none => return (p :: rest, count)
    | some o => return (p.overrideWith o :: rest, count + 1)

/-- Overrides in a folder; without the folder there are none. -/
def override (folder : Path) (ps : List Prompt) : Task m (List Prompt × Nat) := do
  if ← Task.isFolder folder then loadOverrides folder ps else return (ps, 0)

end Prompt

namespace Ledger

/-- The ledger in a file; without a file it is empty. -/
def load (p : Path) : Task m Ledger := do
  if !(← Task.exists? p) then return .empty
  match parse (← Task.read "hash index" p) with
  | .ok ledger => return ledger
  | .error e => Task.fail ⟨["parsing hash index " ++ p.text], some (.json e)⟩

def save (ledger : Ledger) (p : Path) : Task m Unit := do
  Task.createFolderOf p
  Task.write "hash index" p ledger.render.bytes

end Ledger
end Retouch
