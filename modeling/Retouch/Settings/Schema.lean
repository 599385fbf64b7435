import Retouch.Schema
import Retouch.Settings.Basic

/-! How settings are written in a file. Every group and every field of a group may be left out. -/
namespace Retouch

open Schema (field requiredField)

def Theme.schema : Schema Theme :=
  .record ⟨"", "", .empty⟩ <|
    requiredField "id" .string (fun v t => { t with id := v }) <|
    requiredField "name" .string (fun v t => { t with name := v }) <|
    field "colors" (.dict .string) (fun v t => { t with colors := v }) .none

def ThinkingWords.schema : Schema ThinkingWords :=
  .record .default <|
    field "format" .string (fun v t => { t with format := v }) <|
    field "verbs" (.list .string) (fun v t => { t with verbs := v }) .none

def Spinner.schema : Schema Spinner :=
  .record .default <|
    field "phases" (.list .string) (fun v t => { t with phases := v }) <|
    field "update_interval" (.nat UInt64.size) (fun v t => { t with period := v }) <|
    field "reverse_mirror" .bool (fun v t => { t with reversedCopy := v }) .none

def Emphasis.schema : Schema Emphasis := .choice (Emphasis.all.map fun s => (s.name, s))

def Border.schema : Schema Border := .choice (Border.all.map fun s => (s.name, s))

def MessageLook.schema : Schema MessageLook :=
  .record .default <|
    field "format" .string (fun v d => { d with format := v }) <|
    field "foreground_color" .string (fun v d => { d with foregroundColor := v }) <|
    field "background_color" (.optional .string) (fun v d => { d with backgroundColor := v }) <|
    field "styling" (.list Emphasis.schema) (fun v d => { d with emphasis := v }) <|
    field "border_style" Border.schema (fun v d => { d with border := v }) <|
    field "border_color" (.optional .string) (fun v d => { d with borderColor := v }) <|
    field "padding_x" (.nat UInt32.size) (fun v d => { d with paddingX := v }) <|
    field "padding_y" (.nat UInt32.size) (fun v d => { d with paddingY := v }) <|
    field "fit_box_to_content" .bool (fun v d => { d with isFitted := v }) .none

def InputLook.schema : Schema InputLook :=
  .record ⟨false⟩ <| field "remove_border" .bool (fun v _ => ⟨v⟩) .none

def ToolChoice.ofData : String ⊕ List String → ToolChoice
  | .inl p => pattern p
  | .inr ns => names ns

def Toolset.schema : Schema Toolset :=
  .record ⟨"", .names []⟩ <|
    requiredField "name" .string (fun v t => { t with name := v }) <|
    requiredField "allowed_tools" (.map ToolChoice.ofData .stringOrStrings)
      (fun v t => { t with allowedTools := v }) .none

def AgentModels.schema : Schema AgentModels :=
  .record ⟨none, none, none⟩ <|
    field "plan" (.optional .string) (fun v m => { m with plan := v }) <|
    field "explore" (.optional .string) (fun v m => { m with explore := v }) <|
    field "general_purpose" (.optional .string) (fun v m => { m with generalPurpose := v }) .none

def PickerModel.schema : Schema PickerModel :=
  .record ⟨"", "", ""⟩ <|
    requiredField "value" .string (fun v m => { m with value := v }) <|
    requiredField "label" .string (fun v m => { m with label := v }) <|
    field "description" .string (fun v m => { m with description := v }) .none

def Extras.schema : Schema Extras :=
  .record .default <|
    field "context_limit_override" .bool (fun v m => { m with contextOverride := v }) <|
    field "context_limit_env" .string (fun v m => { m with contextVariable := v }) <|
    field "force_verbose" .bool (fun v m => { m with alwaysVerbose := v }) <|
    field "suppress_rate_limit_options" .bool (fun v m => { m with noLimitOptions := v }) <|
    field "hide_startup_banner" .bool (fun v m => { m with noGreeting := v }) <|
    field "prevent_freeze" .bool (fun v m => { m with noBusyWait := v }) .none

def Settings.schema : Schema Settings :=
  .record .default <|
    field "themes" (.list Theme.schema) (fun v s => { s with themes := v }) <|
    field "thinking_verbs" ThinkingWords.schema (fun v s => { s with words := v }) <|
    field "thinking_style" Spinner.schema (fun v s => { s with spinner := v }) <|
    field "user_message_display" MessageLook.schema
      (fun v s => { s with message := v }) <|
    field "input_box" InputLook.schema (fun v s => { s with input := v }) <|
    field "toolsets" (.list Toolset.schema) (fun v s => { s with toolsets := v }) <|
    field "default_toolset" (.optional .string) (fun v s => { s with defaultToolset := v }) <|
    field "subagent_models" AgentModels.schema (fun v s => { s with agentModels := v }) <|
    field "custom_models" (.list PickerModel.schema) (fun v s => { s with pickerModels := v }) <|
    field "misc" Extras.schema (fun v s => { s with extras := v }) .none

end Retouch
