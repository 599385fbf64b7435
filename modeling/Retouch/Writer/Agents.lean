import Retouch.Scan.Bracket
import Retouch.Text.Quoted
import Retouch.Writer.Basic

/-! What agents work with: the tools on offer, the model of each built-in agent, and the models in
the picker. -/
namespace Retouch.Writer.Agents

def enabledCall : Text := ".isEnabled()".toList

/-- The end of the statement that filters the tools. -/
def filterEnd : Text := ".isEnabled());".toList

/-- A filter whose one condition is that a tool is enabled. -/
def toolFilter : Pattern :=
  let optional (c : Char) : Pattern := .many (.oneOf [c]) 0 (some 1)
  .all [.text ".filter(", optional '(', .nameGroup, optional ')', .text "=>", .nameGroup,
    .text ".isEnabled())"]

/-- The tools that the default toolset allows, if it is one that narrows the choice. -/
def chosenTools (settings : Settings) : Attempt (List String) := do
  let selected ← .orSkip settings.defaultToolset .turnedOff
  let toolset ← .orSkip (settings.toolsets.find? (·.name == selected)) (.badSettings
    ("unknown toolset " ++ String.ofList (Text.quoted selected.toList)))
  require !toolset.allowedTools.isUnlimited
  return toolset.allowedTools.toList

/-- Adds the choice of tools to the condition of the filter. -/
def planTools (settings : Settings) (t : Text) : Attempt (List Edit) := do
  let tools ← chosenTools settings
  let found ← Anchored.find t "enabled tools filter" filterEnd ⟨300, 0⟩ toolFilter
  let param ← found.capture t "enabled tools filter" 0
  let receiver ← found.captureSpan "enabled tools filter" 1
  if (← .demand (t.slice? receiver.start receiver.stop)) ≠ param then
    .skip (.emptyCapture "enabled tools filter" "2")
  return [.insert (receiver.stop + enabledCall.size)
    ("&&".toList ++ (Json.strings tools).compact ++ ".includes(".toList ++ param ++ ".name)".toList)]

/-- How far before its type the object of an agent may open, in bytes. -/
def agentReach : Nat := 200

def modelMember : Pattern :=
  .all [.wordEdge, .text "model:",
    .capture (.all [.text "\"", .anyNumber (.noneOf ['"']), .text "\""])]

/-- The value of the first model member of an object that is not in a nested one. The body of the
object starts at an offset of the text. -/
def ownModel? (t : Text) (bodyStart : Nat) (body : Text) : Option Span :=
  (modelMember.matchesIn body).findSome? fun m => do
    let value ← m.captures.head?
    if Scan.depthBetween? t bodyStart (bodyStart + m.span.start) = some 0 then
      some (value.shift bodyStart)
    else none

/-- The edit that gives an agent its model: at its own model member, or right after its type. -/
def modelEdit? (t : Text) (agent model : String) : Attempt (Option Edit) := do
  let typeMember : Text := "agentType:".toList ++ quoted agent
  let place? : Option (Nat × Nat × Nat) := do
    let found ← t.find? typeMember
    let start ← Scan.enclosingOpener? t found 0x7B 0x7D agentReach
    let stop ← (Scan.balancedEnd? t start 0x7B 0x7D).filter (found < ·)
    return (found, start, stop)
  match place? with
  | none => return none
  | some (typeStart, start, stop) =>
    let body ← .demand (t.slice? (start + 1) (stop - 1))
    match ownModel? t (start + 1) body with
    | some value => return some ⟨value.start, value.stop, quoted model⟩
    | none =>
      let typeStop := typeStart + typeMember.size
      let (_, rest) ← Attempt.demand (t.cut? typeStop)
      return if rest.head? = some ',' then
          some (.insert (typeStop + 1) ("model:".toList ++ quoted model ++ [',']))
        else none

def planModels (settings : Settings) (t : Text) : Attempt (List Edit) := do
  let assignments := settings.agentModels.assignments
  require !assignments.isEmpty
  let edits := (← assignments.mapM fun (agent, model) => modelEdit? t agent model).reduceOption
  if edits.isEmpty then .skip (.noMatch "subagent definitions")
  return edits

/-- The first model in the picker. -/
def firstModel : Text := "\x7bvalue:\"default\",label:\"Default (recommended)\"".toList

def assignedList : Pattern := .all [.nameGroup, .text "=["]

/-- A statement that adds a model to a list. -/
def push (list : Text) (model : PickerModel) : Text :=
  list ++ ".push(".toList ++ (Json.object [("description", .string model.description),
    ("label", .string model.label), ("value", .string model.value)]).compact ++ ");".toList

/-- Adds models after the statement that assigns the list. -/
def planPicker (settings : Settings) (t : Text) : Attempt (List Edit) := do
  let models := settings.pickerModels
  require !models.isEmpty
  let found ← Anchored.find t "model options list" firstModel ⟨200, 0⟩ assignedList
  let list ← found.capture t "model options list" 0
  let bracket ← .demand found.found.span.last?
  let stop ← .orSkip (Scan.balancedEnd? t bracket 0x5B 0x5D) (.noMatch "model options list")
  if t.bytes[stop]? ≠ some 0x3B then .skip (.noMatch "model options statement end")
  return [.insert (stop + 1) (models.flatMap (push list))]

end Retouch.Writer.Agents
