import Retouch.Decimal
import Retouch.Schema
import Retouch.Yaml.Node

/-! Typed values from documents. What a plain scalar stands for depends on what is wanted: as a string
it stands for its own text, whatever else it could mean. -/
namespace Retouch.Yaml

def isNullWord (t : Text) : Bool :=
  ["null", "Null", "NULL", "~"].any (·.toList == t)

def boolWord? (t : Text) : Option Bool :=
  if ["true", "True", "TRUE"].any (·.toList == t) then some true
  else if ["false", "False", "FALSE"].any (·.toList == t) then some false
  else none

/-- Digits that are taken for text since they start with a zero. -/
def hasSpareZero : Text → Bool
  | '0' :: c :: t => (c :: t).all Char.isDigit
  | _ => false

/-- A numeral without sign: decimal, or in another base after a letter. -/
def unsigned? : Text → Option Nat
  | '0' :: 'x' :: t => Text.numeral? 16 t
  | '0' :: 'o' :: t => Text.numeral? 8 t
  | '0' :: 'b' :: t => Text.numeral? 2 t
  | t => if hasSpareZero t then none else Text.numeral? 10 t

def natural? : Text → Option Nat
  | '+' :: t => unsigned? t
  | t => unsigned? t

/-- An integer of at most 128 bits. -/
def isInteger : Text → Bool
  | '-' :: t => (unsigned? t).any (· ≤ Nat.pow 2 127)
  | t => (natural? t).any (· < Nat.pow 2 128)

/-- A decimal number without sign: digits around an optional point, and an optional exponent. -/
def decimal? (t : Text) : Option Decimal := do
  let whole := t.takeWhile Char.isDigit
  let (fraction, t) := match t.dropWhile Char.isDigit with
    | '.' :: t => (t.takeWhile Char.isDigit, t.dropWhile Char.isDigit)
    | t => ([], t)
  let significand ← Text.numeral? 10 (whole ++ fraction)
  let exponent : Int ← match t with
    | [] => some 0
    | c :: t =>
      if c ≠ 'e' && c ≠ 'E' then none
      else
        match t with
        | '+' :: t => (Text.numeral? 10 t).map (↑·)
        | '-' :: t => (Text.numeral? 10 t).map (-↑·)
        | t => (Text.numeral? 10 t).map (↑·)
  return ⟨significand, exponent - fraction.length⟩

/-- A number that a double can hold, or the name of one that is no number. -/
def isFloat (t : Text) : Bool :=
  [".inf", ".Inf", ".INF", "+.inf", "+.Inf", "+.INF", "-.inf", "-.Inf", "-.INF",
    ".nan", ".NaN", ".NAN"].any (·.toList == t) ||
  match t with
  | '+' :: t | '-' :: t => !hasSpareZero t && (decimal? t).any (!·.isHuge)
  | t => !hasSpareZero t && (decimal? t).any (!·.isHuge)

/-- The text of a plain scalar does not stand for itself where nothing in particular is wanted. -/
def hasMeaning (t : Text) : Bool :=
  t.isEmpty || isNullWord t || (boolWord? t).isSome || isInteger t || isFloat t

def coreTag (name : String) : Text := "tag:yaml.org,2002:".toList ++ name.toList

/-- The name that a tag of the document itself gives to a value. -/
def localName? : Option Text → Option Text
  | some ('!' :: name) => some (if name.isEmpty then ['!'] else name)
  | _ => none

/-- The anchored nodes, and how many aliases may still be followed. -/
structure Aliases where
  anchored : List (Nat × Node)
  remaining : Nat

abbrev Decoder := StateT Aliases Option

namespace Decoder

/-- The node itself, in the place of an alias. -/
def resolve (n : Node) : Decoder Node := do
  match n with
  | .alias number =>
    let a ← get
    if a.remaining = 0 then failure
    set { a with remaining := a.remaining - 1 }
    (a.anchored.lookup number : Option _)
  | n => return n

def text (n : Node) : Decoder Text := do
  match ← resolve n with
  | .scalar _ _ t => return t
  | _ => failure

/-- The text of a scalar that may stand for a value other than text: a plain one, or a literal block
with a core tag. -/
def meaning (tagName : String) (n : Node) : Decoder Text := do
  match ← resolve n with
  | .scalar _ .plain t => return t
  | .scalar tag .literal t => if tag = some (coreTag tagName) then return t else failure
  | _ => failure

def natural (limit : Nat) (n : Node) : Decoder Nat := do
  let k ← (natural? (← meaning "int" n) : Option _)
  if k < limit then return k else failure

/-- Whether a value is present where it may be left out. -/
def isPresent : Node → Decoder Bool
  | .scalar (some tag) .plain t =>
    if tag = coreTag "null" then if isNullWord t then return false else failure
    else return true
  | .scalar none .plain t => return !(t.isEmpty || isNullWord t)
  | _ => return true

/-- A node left out can stand for an empty collection. -/
def isBlankNode : Node → Bool
  | .scalar _ .plain t => t.isEmpty
  | _ => false

def items (n : Node) : Decoder (List Node) := do
  match ← resolve n with
  | .sequence _ ns => return ns
  | n => if isBlankNode n then return [] else failure

def members (n : Node) : Decoder (List (Node × Node)) := do
  match ← resolve n with
  | .mapping _ ms => return ms
  | n => if isBlankNode n then return [] else failure

/-- One of some names: as text, or as a tag on a value left out. -/
def named {α : Type} (names : List (String × α)) (n : Node) : Decoder α := do
  let name ← match ← resolve n with
    | .scalar tag style t =>
      match localName? tag with
      | none => pure t
      | some name => if style = .plain && (t.isEmpty || isNullWord t) then pure name else failure
    | _ => failure
  (names.lookup (String.ofList name) : Option _)

/-- A scalar that is a string without being wanted as one. -/
def string (n : Node) : Decoder String := do
  match ← resolve n with
  | .scalar none .plain t => if hasMeaning t then failure else return String.ofList t
  | .scalar none _ t => return String.ofList t
  | .scalar (some tag) _ t =>
    let isTyped := ["null", "bool", "int", "float"].any fun name => tag = coreTag name
    if isTyped || (localName? (some tag)).isSome then failure else return String.ofList t
  | _ => failure

def stringOrStrings (n : Node) : Decoder (String ⊕ List String) := do
  match ← resolve n with
  | .sequence tag ns =>
    if (localName? tag).isSome then failure else return .inr (← ns.mapM string)
  | n => return .inl (← string n)

/-- A record on its way, with the names of the fields read so far. -/
structure Progress (σ : Type) where
  record : σ
  seen : List String

/-- The members of a record. No field may come twice, and other members do not count. -/
def byName {σ : Type} (field? : String → Option (Node → σ → Decoder σ)) :
    List (Node × Node) → Progress σ → Decoder (Progress σ)
  | [], done => return done
  | (key, n) :: rest, done => do
    let name := String.ofList (← text key)
    match field? name with
    | none => byName field? rest done
    | some read =>
      if done.seen.contains name then failure
      byName field? rest ⟨← read n done.record, name :: done.seen⟩

mutual

/-- A value of the given shape. -/
def value {α : Type} : Schema α → Node → Decoder α
  | .string, n => do return String.ofList (← text n)
  | .bool, n => do (boolWord? (← meaning "bool" n) : Option _)
  | .nat limit, n => natural limit n
  | .optional s, n => do
    let n ← resolve n
    if ← isPresent n then return some (← value s n) else return none
  | .list s, n => do (← items n).mapM (value s)
  | .dict s, n => do
    let entries ← (← members n).mapM fun (k, v) => do
      return (String.ofList (← text k), ← value s v)
    return .ofList entries
  | .numbered limit s, n => do
    let entries ← (← members n).mapM fun (k, v) => do
      return (← natural limit k, ← value s v)
    return .ofList entries
  | .choice names, n => named names n
  | .stringOrStrings, n => stringOrStrings n
  | .map f s, n => do return f (← value s n)
  | .record start fields, n => do
    let done ← byName (fun name => field? fields name) (← members n) ⟨start, []⟩
    if fields.required.all done.seen.contains then return done.record else failure

/-- A reader of the field with a name, if there is one. -/
def field? {σ : Type} : Fields σ → (name : String) → Option (Node → σ → Decoder σ)
  | .none, _ => none
  | .more own _ s put rest, name =>
    if own = name then some fun n record => do return put (← value s n) record
    else field? rest name

end

end Decoder

/-- The value that a whole text of YAML holds, if it holds one. Aliases may be followed a hundred
times for each step of the document. -/
def decode {α : Type} (s : Schema α) (bs : List UInt8) : Option α := do
  let d ← Document.ofText? (← Utf8.decode? bs)
  let (a, _) ← (Decoder.value s d.root).run ⟨d.anchored, 100 * d.root.weight⟩
  return a

end Retouch.Yaml
