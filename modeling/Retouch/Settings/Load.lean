import Retouch.Host
import Retouch.Json.Decode
import Retouch.Settings.Schema
import Retouch.Yaml.Decode

/-! Reading settings from a file, in the format that its name tells. -/
namespace Retouch.Settings

/-- Settings in JSON if the name of the file says so, and in YAML otherwise. -/
def parse (p : Path) (bytes : List UInt8) : Except Cause Settings :=
  if p.hasExtension "json" then (Json.decode schema bytes).mapError .json
  else
    match Yaml.decode schema bytes with
    | some s => .ok s
    | none => .error .yaml

def load {m : Type → Type} [Monad m] [Host m] (p : Path) : Task m Settings := do
  let bytes ← Task.read "settings" p
  match parse p bytes with
  | .ok s => return s
  | .error c => Task.fail ⟨["parsing settings " ++ p.text], some c⟩

end Retouch.Settings
