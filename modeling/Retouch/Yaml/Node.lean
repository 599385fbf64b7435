import Retouch.SortedMap
import Retouch.Yaml.Token

/-! Documents as trees of nodes. An alias stays a reference to the node that was anchored. -/
namespace Retouch.Yaml

inductive Node where
  | scalar (tag : Option Text) (style : ScalarStyle) (text : Text)
  | sequence (tag : Option Text) (items : List Node)
  | mapping (tag : Option Text) (members : List (Node × Node))
  /-- The node of an anchor, by number. -/
  | alias (number : Nat)

namespace Node

/-- What stands in the place of a node that is left out. -/
def absent : Node := .scalar none .plain []

mutual

/-- How many steps it takes to list a node: one for a scalar or alias, and two around the parts of
a collection. -/
def weight : Node → Nat
  | .scalar .. | .alias _ => 1
  | .sequence _ items => 2 + itemsWeight items
  | .mapping _ members => 2 + membersWeight members

def itemsWeight : List Node → Nat
  | [] => 0
  | n :: ns => weight n + itemsWeight ns

def membersWeight : List (Node × Node) → Nat
  | [] => 0
  | (k, v) :: rest => weight k + weight v + membersWeight rest

end

end Node

structure Document where
  root : Node
  /-- Anchored nodes by number, the latest first. -/
  anchored : List (Nat × Node)

/-- Tokens on their way to nodes. -/
structure Reading where
  tokens : List Token
  handles : List (Text × Text)
  /-- The number that each anchor name stands for. -/
  numbers : SortedMap String Nat
  anchored : List (Nat × Node)

abbrev NodeReader := StateT Reading Option

namespace NodeReader

def peek : NodeReader (Option Token) := do return (← get).tokens.head?

def drop : NodeReader Unit := modify fun r => { r with tokens := r.tokens.tail }

def next : NodeReader Token := do
  match ← peek with
  | some t =>
    drop
    return t
  | none => failure

/-- Takes a token, if it is the next one. -/
def take? (t : Token) : NodeReader Bool := do
  if (← peek) = some t then
    drop
    return true
  else return false

/-- A node, unless one of some tokens shows that it is left out. -/
def orAbsent (stops : List Token) (node : NodeReader Node) : NodeReader Node := do
  match ← peek with
  | none => node
  | some t => if stops.contains t then return .absent else node

/-- A value after its mark. Without the mark it is left out. -/
def marked (stops : List Token) (node : NodeReader Node) : NodeReader Node := do
  if ← take? .value then orAbsent stops node else return .absent

/-- The items of a block sequence after its start. -/
def blockItems (node : NodeReader Node) : (fuel : Nat) → NodeReader (List Node)
  | 0 => failure
  | fuel + 1 => do
    match ← next with
    | .entry =>
      let item ← orAbsent [.entry, .blockEnd] node
      return item :: (← blockItems node fuel)
    | .blockEnd => return []
    | _ => failure

/-- The items of a sequence that is not indented in the mapping around it. -/
def bareItems (node : NodeReader Node) : (fuel : Nat) → NodeReader (List Node)
  | 0 => failure
  | fuel + 1 => do
    if ← take? .entry then
      let item ← orAbsent [.entry, .key, .value, .blockEnd] node
      return item :: (← bareItems node fuel)
    else return []

/-- The members of a block mapping after its start. -/
def blockMembers (node : NodeReader Node) : (fuel : Nat) → NodeReader (List (Node × Node))
  | 0 => failure
  | fuel + 1 => do
    match ← next with
    | .key =>
      let k ← orAbsent [.key, .value, .blockEnd] node
      let v ← marked [.key, .value, .blockEnd] node
      return (k, v) :: (← blockMembers node fuel)
    | .blockEnd => return []
    | _ => failure

/-- Whether another part of a flow collection comes; commas stand between the parts, and one may
stand after the last. -/
def nextPart (isFirst : Bool) (closer : Token) : NodeReader Bool := do
  if ← take? closer then return false
  if !isFirst then
    if !(← take? .comma) then failure
    if ← take? closer then return false
  return true

/-- A mapping of one member in a flow sequence, after the mark of its key. A token stands in the
place of a key that is left out. -/
def pair (node : NodeReader Node) : NodeReader Node := do
  let k ← match ← peek with
    | some .value | some .comma | some .flowSequenceEnd =>
      drop
      pure .absent
    | _ => node
  let v ← marked [.comma, .flowSequenceEnd] node
  return .mapping none [(k, v)]

/-- The items of a flow sequence after its bracket. -/
def flowItems (node : NodeReader Node) : (fuel : Nat) → (isFirst : Bool) → NodeReader (List Node)
  | 0, _ => failure
  | fuel + 1, isFirst => do
    if ← nextPart isFirst .flowSequenceEnd then
      let item ← if ← take? .key then pair node else node
      return item :: (← flowItems node fuel false)
    else return []

/-- The members of a flow mapping after its brace. -/
def flowMembers (node : NodeReader Node) :
    (fuel : Nat) → (isFirst : Bool) → NodeReader (List (Node × Node))
  | 0, _ => failure
  | fuel + 1, isFirst => do
    if ← nextPart isFirst .flowMappingEnd then
      let member ←
        if ← take? .key then
          let k ← orAbsent [.value, .comma, .flowMappingEnd] node
          pure (k, ← marked [.comma, .flowMappingEnd] node)
        else pure (← node, .absent)
      return member :: (← flowMembers node fuel false)
    else return []

/-- Where a node stands. -/
inductive Place where
  | block
  /-- In a block mapping, where a sequence need not be indented. -/
  | member
  | flow
  deriving DecidableEq

/-- The node that a document writes without an alias, if one starts here. -/
def content? (node : Place → NodeReader Node) (fuel : Nat) (place : Place) (tag : Option Text) :
    NodeReader (Option Node) := do
  match ← peek with
  | some (.scalar style text) =>
    drop
    return some (.scalar tag style text)
  | some .flowSequence =>
    drop
    return some (.sequence tag (← flowItems (node .flow) fuel true))
  | some .flowMapping =>
    drop
    return some (.mapping tag (← flowMembers (node .flow) fuel true))
  | some .entry =>
    if place = .member then return some (.sequence tag (← bareItems (node .block) fuel))
    else return none
  | some .blockSequence =>
    if place = .flow then return none
    drop
    return some (.sequence tag (← blockItems (node .block) fuel))
  | some .blockMapping =>
    if place = .flow then return none
    drop
    return some (.mapping tag (← blockMembers (node .member) fuel))
  | _ => return none

/-- The name of an anchor that comes next. -/
def anchor? : NodeReader (Option String) := do
  match ← peek with
  | some (.anchor name) =>
    drop
    return some (String.ofList name)
  | _ => return none

/-- A tag that comes next, with its handle replaced. -/
def tag? : NodeReader (Option Text) := do
  match ← peek with
  | some (.tag handle rest) =>
    drop
    if handle.isEmpty then return some rest
    match (← get).handles.lookup handle with
    | some start => return some (start ++ rest)
    | none => failure
  | _ => return none

/-- Lets a name stand for the node to come. A new name gets the next number. -/
def register (name : String) : NodeReader Nat := do
  let number := (← get).numbers.entries.length
  modify fun r => { r with numbers := r.numbers.insert name number }
  return number

/-- A node with its anchor and tag, in either order. Either one is enough if the rest is left out. -/
def properNode (node : Place → NodeReader Node) (fuel : Nat) (place : Place) : NodeReader Node := do
  let early ← anchor?
  let tag ← tag?
  let anchor ← if early.isNone && tag.isSome then anchor? else pure early
  let number ← anchor.mapM register
  let found ← match ← content? node fuel place tag with
    | some found => pure found
    | none => if tag.isSome || anchor.isSome then pure (.scalar tag .plain []) else failure
  match number with
  | none => return found
  | some number =>
    modify fun r => { r with anchored := (number, found) :: r.anchored }
    return found

/-- A node, with `fuel` levels to go. -/
def node : (fuel : Nat) → Place → NodeReader Node
  | 0, _ => failure
  | fuel + 1, place => do
    match ← peek with
    | some (.alias name) =>
      drop
      match (← get).numbers.get? (String.ofList name) with
      | some number => return .alias number
      | none => failure
    | _ => properNode (node fuel) fuel place

/-- The directives before a document. -/
def directives : (fuel : Nat) → (isVersioned : Bool) → (handles : List (Text × Text)) →
    NodeReader (Bool × List (Text × Text))
  | 0, _, _ => failure
  | fuel + 1, isVersioned, handles => do
    match ← peek with
    | some (.version major minor) =>
      if isVersioned || major ≠ 1 || (minor ≠ 1 && minor ≠ 2) then failure
      drop
      directives fuel true handles
    | some (.handle name start) =>
      if (handles.lookup name).isSome then failure
      drop
      directives fuel isVersioned ((name, start) :: handles)
    | _ => return (isVersioned, handles)

/-- The handles that need no directive. -/
def commonHandles : List (Text × Text) :=
  [("!".toList, "!".toList), ("!!".toList, "tag:yaml.org,2002:".toList)]

/-- The root of the only document. No document at all reads as one whose root is left out. -/
def root : NodeReader Node := do
  if (← get).tokens.isEmpty then return .absent
  let fuel := 2 * (← get).tokens.length + 2
  let (isVersioned, handles) ← directives fuel false []
  modify fun r => { r with handles := handles ++ commonHandles }
  let isMarked ← take? .documentStart
  if !isMarked && (isVersioned || !handles.isEmpty) then failure
  let isAbsent ← match ← peek with
    | none | some .documentStart | some .documentEnd => pure isMarked
    | some (.version ..) | some (.handle ..) => pure isMarked
    | _ => pure false
  let root ← if isAbsent then pure .absent else node fuel .block
  if (← get).tokens.all (· = .documentEnd) then return root else failure

end NodeReader

/-- The document that a text holds. -/
def Document.ofText? (t : Text) : Option Document := do
  let tokens ← Token.ofText? t
  let (root, done) ← NodeReader.root.run ⟨tokens, [], .empty, []⟩
  return ⟨root, done.anchored⟩

end Retouch.Yaml
