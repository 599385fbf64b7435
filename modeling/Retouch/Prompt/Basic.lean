import Retouch.SortedMap
import Retouch.Text.Basic

/-! Prompts: pieces of fixed text with an identifier in each gap between them. The reference text
shows a variable in each gap; a customized prompt has content of its own. -/
namespace Retouch

structure Prompt where
  id : String
  name : String
  description : String
  pieces : List Text
  /-- The identifier of each gap, by number. -/
  slots : List Nat
  /-- Variable names by identifier number. -/
  slotNames : SortedMap Nat Text
  listedVariables : List Text
  /-- Customized text; without it the reference text is used as it is. -/
  custom : Option Text
  deriving DecidableEq

namespace Prompt

def slotText (p : Prompt) (slot : Nat) : Text :=
  (p.slotNames.get? slot).getD ("UNKNOWN_".toList ++ slot.repr.toList)

/-- Pieces with the text of a slot in each gap, as far as there are slots. -/
def interleave (slotText : Nat → Text) : (pieces : List Text) → (slots : List Nat) → Text
  | [], _ => []
  | [piece], _ => piece
  | piece :: pieces, [] => piece ++ interleave slotText pieces []
  | piece :: pieces, slot :: slots => piece ++ slotText slot ++ interleave slotText pieces slots

/-- The reference text. -/
def reference (p : Prompt) : Text := interleave p.slotText p.pieces p.slots

def content (p : Prompt) : Text := p.custom.getD p.reference

/-- The prompt has content of its own that is not the reference text. -/
def isCustom (p : Prompt) : Bool := p.custom.any (· != p.reference)

/-- Variable names in the order of their slots, unless they are listed. -/
def variableNames (p : Prompt) : List Text :=
  if p.listedVariables.isEmpty then (p.slots.filterMap p.slotNames.get?).eraseDups
  else p.listedVariables

/-- What is wrong with reference data. -/
inductive Defect where
  | noPieces
  | startsWithGap
  | missingSlots (gaps slots : Nat)
  | unnamedSlot (slot : Nat)
  deriving DecidableEq, Repr

def Defect.message (id : String) : Defect → String
  | noPieces => "prompt " ++ id ++ " has no pieces"
  | startsWithGap =>
    "prompt " ++ id ++ " starts with an identifier; a literal prefix is required"
  | missingSlots gaps slots =>
    "prompt " ++ id ++ " has " ++ gaps.repr ++ " gaps but " ++ slots.repr ++ " identifier positions"
  | unnamedSlot slot => "prompt " ++ id ++ " has no variable name for identifier " ++ slot.repr

/-- The first defect, if there is one. -/
def defect? (p : Prompt) : Option Defect :=
  match p.pieces with
  | [] => some .noPieces
  | first :: rest =>
    if first.isEmpty && !rest.isEmpty then some .startsWithGap
    else if p.slots.length < rest.length then some (.missingSlots rest.length p.slots.length)
    else ((p.slots.take rest.length).find? (!p.slotNames.contains ·)).map .unnamedSlot

end Prompt
end Retouch
