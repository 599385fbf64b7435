import Retouch.SortedMap

/-! Shapes of typed data, apart from the format in which the data is written. A reader of a format
follows the shape and yields the value. -/
namespace Retouch

mutual

inductive Schema : Type → Type 1 where
  | string : Schema String
  | bool : Schema Bool
  /-- A natural number below a limit. -/
  | nat (limit : Nat) : Schema Nat
  | optional {α : Type} (s : Schema α) : Schema (Option α)
  | list {α : Type} (s : Schema α) : Schema (List α)
  | dict {α : Type} (s : Schema α) : Schema (SortedMap String α)
  /-- Entries under natural numbers below a limit. -/
  | numbered {α : Type} (limit : Nat) (s : Schema α) : Schema (SortedMap Nat α)
  /-- One of some names. -/
  | choice {α : Type} (names : List (String × α)) : Schema α
  /-- A list of strings or a single string. -/
  | stringOrStrings : Schema (String ⊕ List String)
  | map {α β : Type} (f : α → β) (s : Schema α) : Schema β
  /-- Named fields, put one by one into a record that holds the defaults. -/
  | record {σ : Type} (start : σ) (fields : Fields σ) : Schema σ

inductive Fields : Type → Type 1 where
  | none {σ : Type} : Fields σ
  | more {σ α : Type} (name : String) (required : Bool) (s : Schema α) (put : α → σ → σ)
      (rest : Fields σ) : Fields σ

end

namespace Fields

def names {σ : Type} : Fields σ → List String
  | .none => []
  | .more name _ _ _ rest => name :: rest.names

def required {σ : Type} : Fields σ → List String
  | .none => []
  | .more name isRequired _ _ rest => if isRequired then name :: rest.required else rest.required

end Fields
namespace Schema

/-- A field that may be left out. -/
def field {σ α : Type} (name : String) (s : Schema α) (put : α → σ → σ) (rest : Fields σ) : Fields σ :=
  .more name false s put rest

def requiredField {σ α : Type} (name : String) (s : Schema α) (put : α → σ → σ) (rest : Fields σ) :
    Fields σ :=
  .more name true s put rest

end Schema

end Retouch
