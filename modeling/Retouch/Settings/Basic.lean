import Retouch.SortedMap

/-! What the user can set. Every group has a default. -/
namespace Retouch

structure Theme where
  id : String
  name : String
  colors : SortedMap String String
  deriving DecidableEq

structure ThinkingWords where
  /-- The text around a word, whose place two braces mark. -/
  format : String
  verbs : List String
  deriving DecidableEq

structure Spinner where
  phases : List String
  /-- Milliseconds between two phases. -/
  period : Nat
  /-- After the phases come the same phases backwards. -/
  reversedCopy : Bool
  deriving DecidableEq

inductive Emphasis where
  | bold
  | italic
  | underline
  | strikethrough
  | inverse
  deriving DecidableEq

namespace Emphasis

/-- All styles, in the order in which they are written. -/
def all : List Emphasis := [bold, italic, underline, strikethrough, inverse]

def name : Emphasis → String
  | bold => "bold"
  | italic => "italic"
  | underline => "underline"
  | strikethrough => "strikethrough"
  | inverse => "inverse"

end Emphasis

inductive Border where
  | none
  | single
  | double
  | round
  | bold
  | singleDouble
  | doubleSingle
  | classic
  deriving DecidableEq

namespace Border

def all : List Border :=
  [none, single, double, round, bold, singleDouble, doubleSingle, classic]

def name : Border → String
  | none => "none"
  | single => "single"
  | double => "double"
  | round => "round"
  | bold => "bold"
  | singleDouble => "singleDouble"
  | doubleSingle => "doubleSingle"
  | classic => "classic"

end Border

structure MessageLook where
  /-- The text around a message, whose place two braces mark. -/
  format : String
  foregroundColor : String
  /-- Without a color the background is removed. -/
  backgroundColor : Option String
  emphasis : List Emphasis
  border : Border
  borderColor : Option String
  paddingX : Nat
  paddingY : Nat
  isFitted : Bool
  deriving DecidableEq

/-- The color that stands for whatever the bundle already uses. -/
def sameColor : String := "default"

def MessageLook.isBoxed (d : MessageLook) : Bool :=
  d.border != .none || 0 < d.paddingX || 0 < d.paddingY || d.isFitted

structure InputLook where
  removeBorder : Bool
  deriving DecidableEq

/-- Tools by name, or by a pattern of which only a star has a meaning. -/
inductive ToolChoice where
  | names (ns : List String)
  | pattern (p : String)
  deriving DecidableEq

namespace ToolChoice

def isUnlimited : ToolChoice → Bool
  | pattern p => p == "*"
  | names _ => false

def toList : ToolChoice → List String
  | names ns => ns
  | pattern p => if p == "*" then [] else [p]

end ToolChoice

structure Toolset where
  name : String
  allowedTools : ToolChoice
  deriving DecidableEq

structure AgentModels where
  plan : Option String
  explore : Option String
  generalPurpose : Option String
  deriving DecidableEq

/-- The agents with a model of their own, each with its model. -/
def AgentModels.assignments (m : AgentModels) : List (String × String) :=
  [("Plan", m.plan), ("Explore", m.explore), ("general-purpose", m.generalPurpose)].filterMap
    fun (agent, model) => model.map (agent, ·)

structure PickerModel where
  value : String
  label : String
  description : String
  deriving DecidableEq

structure Extras where
  /-- An environment variable may give the size of the context window. -/
  contextOverride : Bool
  /-- The name of that variable. -/
  contextVariable : String
  alwaysVerbose : Bool
  noLimitOptions : Bool
  noGreeting : Bool
  noBusyWait : Bool
  deriving DecidableEq

structure Settings where
  themes : List Theme
  words : ThinkingWords
  spinner : Spinner
  message : MessageLook
  input : InputLook
  toolsets : List Toolset
  defaultToolset : Option String
  agentModels : AgentModels
  pickerModels : List PickerModel
  extras : Extras
  deriving DecidableEq

namespace ThinkingWords

def default : ThinkingWords where
  format := "\x7b\x7d… "
  verbs := ["Accomplishing", "Brewing", "Cogitating", "Computing", "Deliberating", "Musing",
    "Pondering", "Processing", "Ruminating", "Thinking", "Working"]

end ThinkingWords

def Spinner.default : Spinner where
  phases := ["·", "✢", "✳", "✶", "✻", "✽"]
  period := 120
  reversedCopy := true

def MessageLook.default : MessageLook where
  format := "> \x7b\x7d"
  foregroundColor := sameColor
  backgroundColor := some sameColor
  emphasis := []
  border := .none
  borderColor := none
  paddingX := 0
  paddingY := 0
  isFitted := false

def Extras.default : Extras where
  contextOverride := true
  contextVariable := "CLAUDE_CODE_CONTEXT_LIMIT"
  alwaysVerbose := false
  noLimitOptions := false
  noGreeting := false
  noBusyWait := false

def Settings.default : Settings where
  themes := []
  words := .default
  spinner := .default
  message := .default
  input := ⟨false⟩
  toolsets := []
  defaultToolset := none
  agentModels := ⟨none, none, none⟩
  pickerModels := []
  extras := .default

instance : Inhabited Settings := ⟨.default⟩

end Retouch
