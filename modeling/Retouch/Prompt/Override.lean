import Retouch.Failure
import Retouch.Prompt.Schema
import Retouch.Text.Blank
import Retouch.Text.Line
import Retouch.Yaml.Decode

/-! Overrides: files that hold the text of a customized prompt. Between two fences before the text,
a file may hold a heading. -/
namespace Retouch

namespace Prompt

structure Heading where
  name : Option String
  description : Option String
  /-- The release for which the text was written. -/
  version : Option String
  deriving DecidableEq, Repr

namespace Heading

def empty : Heading := ⟨none, none, none⟩

open Schema (field) in
def schema : Schema Heading :=
  .record empty <|
    field "name" (.optional .string) (fun v h => { h with name := v }) <|
    field "description" (.optional .string) (fun v h => { h with description := v }) <|
    field "version" (.optional .string) (fun v h => { h with version := v }) .none

end Heading

structure Override where
  heading : Heading
  body : Text
  deriving DecidableEq, Repr

/-- A line that stands before or after a heading. -/
def isFence (line : Text) : Bool := Text.trim line == "---".toList

namespace Override

def readHeading (t : Text) : Except Failure Heading :=
  if (Text.trim t).isEmpty then .ok .empty
  else
    match Yaml.decode Heading.schema t.bytes with
    | some h => .ok h
    | none => .error ⟨["parsing frontmatter"], some .yaml⟩

/-- Without a fence on its first line, a file is all body. -/
def parse (t : Text) : Except Failure Override :=
  match t.lines with
  | [] => .ok ⟨.empty, t⟩
  | first :: rest =>
    if isFence first then
      match rest.dropWhile (!isFence ·) with
      | [] => .error (.ofMessage "frontmatter is not terminated")
      | _ :: body => do
        let heading ← readHeading (Text.join ['\n'] (rest.takeWhile (!isFence ·)))
        return ⟨heading, Text.join ['\n'] body⟩
    else .ok ⟨.empty, t⟩

end Override

/-- A prompt with the text of its override, and with its name and description if they are given. -/
def overrideWith (p : Prompt) (o : Override) : Prompt :=
  { p with
    name := o.heading.name.getD p.name
    description := o.heading.description.getD p.description
    custom := some o.body }

end Prompt
end Retouch
