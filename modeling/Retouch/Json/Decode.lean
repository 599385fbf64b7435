import Retouch.Json.Read
import Retouch.Schema

/-! Typed values from JSON. Members that no field has a use for are passed over, but have to be
well formed. A record may also be given as an array of its fields in order. -/
namespace Retouch.Json
namespace Read

/-- Whether what encloses a value is an object, with an array otherwise. -/
abbrev Enclosing := List Bool

/-- After a value, or after an opening bracket if `isFirst`: closes what ends here, up to the place
of the next value. Nothing is left to do when the outermost value ends. -/
def skipToNext (isFirst : Bool) : Enclosing → Reader (Option Enclosing)
  | [] => return none
  | isObject :: outer => do
    match ← peekSolid with
    | none => fail .incomplete
    | some b =>
      if b = (if isObject then 0x7D else 0x5D) then
        skip
        skipToNext false outer
      else
        if !isFirst then
          if b ≠ 0x2C then fail .malformed
          skip
        if isObject then
          match ← peekSolid with
          | none => fail .incomplete
          | some q => if q ≠ 0x22 then fail .malformed
          skipString
          colon
        return some (isObject :: outer)

/-- Passes over values until the outermost one ends. Each round takes at least one byte, so the
number of bytes is enough fuel. -/
def skipValues : (fuel : Nat) → Enclosing → Reader Unit
  | 0, _ => fail .incomplete
  | fuel + 1, enclosing => do
    let b ← demandSolid
    let (isFirst, enclosing) ←
      if b = 0x5B then do skip; pure (true, false :: enclosing)
      else if b = 0x7B then do skip; pure (true, true :: enclosing)
      else do
        if b = 0x6E then word nullWord
        else if b = 0x74 then word trueWord
        else if b = 0x66 then word falseWord
        else if b = 0x22 then skipString
        else if b = 0x2D || isDigitByte b then skipNumber
        else fail .malformed
        pure (false, enclosing)
    match ← skipToNext isFirst enclosing with
    | none => return
    | some enclosing => skipValues fuel enclosing

/-- Passes over a value of any depth. -/
def skipValue : Reader Unit := do skipValues ((← get).length + 1) []

/-- The items of an array after its opening bracket. -/
def items {α : Type} (item : Reader α) : (fuel : Nat) → (isFirst : Bool) → Reader (List α)
  | 0, _ => fail .incomplete
  | fuel + 1, isFirst => do
    if ← nextItem isFirst then
      let a ← item
      return a :: (← items item fuel false)
    else return []

def allItems {α : Type} (item : Reader α) : Reader (List α) := do
  skip
  let found ← items item ((← get).length + 1) true
  endArray
  return found

/-- The members of an object after its opening brace. -/
def members {κ α : Type} (key : Reader κ) (value : κ → Reader α) :
    (fuel : Nat) → (isFirst : Bool) → Reader (List (κ × α))
  | 0, _ => fail .incomplete
  | fuel + 1, isFirst => do
    if ← nextMember isFirst then
      let k ← key
      colon
      let a ← value k
      return (k, a) :: (← members key value fuel false)
    else return []

def allMembers {κ α : Type} (key : Reader κ) (value : κ → Reader α) : Reader (List (κ × α)) := do
  skip
  let found ← members key value ((← get).length + 1) true
  endObject
  return found

/-- A key that is a natural number below a limit. -/
def numberKey (limit : Nat) : Reader Nat := do
  skip
  match ← peek with
  | some b => if b ≠ 0x2D && !isDigitByte b then fail .malformed
  | none => fail .malformed
  match ← number with
  | none => fail .mismatch
  | some n =>
    if limit ≤ n then fail .mismatch
    if (← peek) ≠ some 0x22 then fail .malformed
    skip
    return n

/-- How many brackets may be open at once. -/
def depthLimit : Nat := 127

/-- One level deeper, if there is one left. -/
def deeper {α : Type} (depth : Nat) (body : Nat → Reader α) : Reader α :=
  match depth with
  | 0 => fail .malformed
  | depth + 1 => body depth

/-- A value that is neither an array nor an object: its text, if it is a string. -/
def scalar (b : UInt8) : Reader (Option String) := do
  if b = 0x22 then return some (← quotedString)
  if b = 0x6E then word nullWord
  else if b = 0x74 then word trueWord
  else if b = 0x66 then word falseWord
  else if b = 0x2D || isDigitByte b then discard number
  else fail .malformed
  return none

/-- The strings of a list that holds nothing else. -/
def allStrings : List (Option (String ⊕ List String)) → Option (List String)
  | [] => some []
  | some (.inl s) :: rest => (allStrings rest).map (s :: ·)
  | _ :: _ => none

/-- A whole value of which only strings and lists of strings are of use. Whatever else it is, it is
read to its end first. -/
def stringOrStrings : (depth : Nat) → Reader (Option (String ⊕ List String))
  | 0 => do
    let b ← demandSolid
    if b = 0x5B || b = 0x7B then fail .malformed
    return (← scalar b).map .inl
  | depth + 1 => do
    let b ← demandSolid
    if b = 0x5B then
      return (allStrings (← allItems (stringOrStrings depth))).map .inr
    else if b = 0x7B then
      discard (allMembers quotedString fun _ => stringOrStrings depth)
      return none
    else return (← scalar b).map .inl

/-- A record on its way, with the names of the fields read so far. -/
structure Progress (σ : Type) where
  record : σ
  seen : List String

/-- The members of a record. No field may come twice. -/
def byName {σ : Type} (field? : String → Option (σ → Reader σ)) :
    (fuel : Nat) → (isFirst : Bool) → Progress σ → Reader (Progress σ)
  | 0, _, _ => fail .incomplete
  | fuel + 1, isFirst, done => do
    if ← nextMember isFirst then
      let name ← quotedString
      match field? name with
      | none =>
        colon
        skipValue
        byName field? fuel false done
      | some read =>
        if done.seen.contains name then fail .mismatch
        colon
        byName field? fuel false ⟨← read done.record, name :: done.seen⟩
    else return done

mutual

/-- A value of the given shape, with `depth` levels of brackets to go. -/
def value {α : Type} : Schema α → (depth : Nat) → Reader α
  | .string, _ => do if (← demandSolid) = 0x22 then quotedString else refuse
  | .bool, _ => do
    let b ← demandSolid
    if b = 0x74 then
      word trueWord
      return true
    else if b = 0x66 then
      word falseWord
      return false
    else refuse
  | .nat limit, _ => do
    let b ← demandSolid
    if b = 0x2D || isDigitByte b then
      match ← number with
      | some n => if n < limit then return n else fail .mismatch
      | none => fail .mismatch
    else refuse
  | .optional s, depth => do
    if (← peekSolid) = some 0x6E then
      word nullWord
      return none
    else return some (← value s depth)
  | .list s, depth => do
    if (← demandSolid) = 0x5B then deeper depth fun depth => allItems (value s depth) else refuse
  | .dict s, depth => do
    if (← demandSolid) = 0x7B then
      deeper depth fun depth => do
        return .ofList (← allMembers quotedString fun _ => value s depth)
    else refuse
  | .numbered limit s, depth => do
    if (← demandSolid) = 0x7B then
      deeper depth fun depth => do
        return .ofList (← allMembers (numberKey limit) fun _ => value s depth)
    else refuse
  | .choice names, depth => do
    let b ← demandSolid
    let named (name : String) : Reader _ :=
      match names.lookup name with
      | some a => return a
      | none => fail .mismatch
    if b = 0x22 then named (← quotedString)
    else if b = 0x7B then
      deeper depth fun _ => do
        skip
        let a ← if (← demandSolid) = 0x22 then named (← quotedString) else refuse
        colon
        if (← demandSolid) = 0x6E then word nullWord else refuse
        match ← peekSolid with
        | some 0x7D => skip
        | some _ => fail .malformed
        | none => fail .incomplete
        return a
    else fail .malformed
  | .stringOrStrings, depth => do
    match ← stringOrStrings depth with
    | some a => return a
    | none => fail .mismatch
  | .map f s, depth => do return f (← value s depth)
  | .record start fields, depth => do
    let b ← demandSolid
    if b = 0x5B then
      deeper depth fun depth => do
        skip
        let record ← inOrder fields depth true start
        endArray
        return record
    else if b = 0x7B then
      deeper depth fun depth => do
        skip
        let done ← byName (fun name => field? fields depth name) ((← get).length + 1) true ⟨start, []⟩
        if fields.required.any (!done.seen.contains ·) then fail .mismatch
        endObject
        return done.record
    else refuse

/-- The fields of a record given as an array. Those without an item keep their defaults. -/
def inOrder {σ : Type} : Fields σ → (depth : Nat) → (isFirst : Bool) → σ → Reader σ
  | .none, _, _, record => return record
  | .more _ isRequired s put rest, depth, isFirst, record => do
    if ← nextItem isFirst then
      let a ← value s depth
      inOrder rest depth false (put a record)
    else if isRequired then fail .mismatch
    else inOrder rest depth isFirst record

/-- A reader of the field with a name, if there is one. -/
def field? {σ : Type} : Fields σ → (depth : Nat) → (name : String) → Option (σ → Reader σ)
  | .none, _, _ => none
  | .more own _ s put rest, depth, name =>
    if own = name then some fun record => do return put (← value s depth) record
    else field? rest depth name

end

end Read

open Read in
/-- The value that a whole text of JSON holds. -/
def decode {α : Type} (s : Schema α) (bs : List UInt8) : Except ReadError α := do
  let (a, rest) ← (value s depthLimit).run bs
  if (rest.dropWhile isBlankByte).isEmpty then .ok a else .error .malformed

end Retouch.Json
