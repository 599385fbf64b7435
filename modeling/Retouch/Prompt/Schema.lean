import Retouch.Prompt.Basic
import Retouch.Schema

/-! How reference prompts are written in a file. -/
namespace Retouch

open Schema (field requiredField)

def Schema.text : Schema Text := .map String.toList .string

def Prompt.schema : Schema Prompt :=
  .record ⟨"", "", "", [], [], .empty, [], none⟩ <|
    requiredField "id" .string (fun v p => { p with id := v }) <|
    field "name" .string (fun v p => { p with name := v }) <|
    field "description" .string (fun v p => { p with description := v }) <|
    requiredField "pieces" (.list .text) (fun v p => { p with pieces := v }) <|
    field "identifiers" (.list (.nat UInt64.size)) (fun v p => { p with slots := v }) <|
    field "identifierMap" (.numbered UInt64.size .text) (fun v p => { p with slotNames := v }) <|
    field "variables" (.list .text) (fun v p => { p with listedVariables := v }) <|
    field "content" (.optional .text) (fun v p => { p with custom := v }) .none

/-- The prompts of one release of the bundle. -/
structure PromptSet where
  version : String
  prompts : List Prompt
  deriving DecidableEq

def PromptSet.schema : Schema PromptSet :=
  .record ⟨"", []⟩ <|
    requiredField "version" .string (fun v d => { d with version := v }) <|
    requiredField "prompts" (.list Prompt.schema) (fun v d => { d with prompts := v }) .none

end Retouch
