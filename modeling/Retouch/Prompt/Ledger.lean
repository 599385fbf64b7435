import Retouch.Json.Decode
import Retouch.Json.Value
import Retouch.Prompt.Basic
import Retouch.Sha256

/-! Hashes of prompt texts by prompt id, kept between runs to tell which prompts have changed. -/
namespace Retouch

/-- Without a hash, a prompt was left at its reference text. -/
abbrev Ledger := SortedMap String (Option String)

def textHash (t : Text) : String := String.ofList (Sha256.hexDigest t.bytes)

namespace Prompt

/-- The hash of the content, if it is customized. -/
def customHash (p : Prompt) : Option String :=
  if p.isCustom then some (textHash p.content) else none

def referenceHash (p : Prompt) : String := textHash p.reference

end Prompt

namespace Ledger

def record (ledger : Ledger) (id : String) (hash : Option String) : Ledger :=
  ledger.insert id hash

def isPending (applied : Ledger) (p : Prompt) : Bool :=
  match applied.get? p.id with
  | some recorded => recorded != p.customHash
  | none => p.customHash.isSome

/-- Ids of prompts whose content is not what was last applied. -/
def pending (applied : Ledger) (ps : List Prompt) : List String :=
  (ps.filter applied.isPending).map (·.id)

def hasNewReference (recorded : Ledger) (p : Prompt) : Bool :=
  match recorded.get? p.id with
  | some (some hash) => hash != p.referenceHash
  | _ => false

/-- Ids of prompts whose reference text is not the one recorded. -/
def newReferences (recorded : Ledger) (ps : List Prompt) : List String :=
  (ps.filter recorded.hasNewReference).map (·.id)

/-- The ledger as the text of its file. -/
def render (ledger : Ledger) : Text :=
  (Json.object (ledger.entries.map fun (id, hash) => (id, .ofOption hash))).pretty

def schema : Schema Ledger := .dict (.optional .string)

/-- The ledger that the bytes of a file hold. -/
def parse (bs : List UInt8) : Except Json.ReadError Ledger := Json.decode schema bs

end Ledger
end Retouch
