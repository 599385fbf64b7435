import Retouch.Diff.Change
import Retouch.Diff.Lines
import Retouch.Prompt.Matcher

/-! The prompt stage: every prompt found in the source is brought to its content. One that is
not found, or cannot be written where it stands, is reported and left alone. -/
namespace Retouch

/-- Whether changes are shown, and how. -/
structure Reporting where
  enabled : Bool
  colored : Bool
  deriving DecidableEq, Repr

namespace Reporting

/-- A message for each step of a series of edits. -/
def steps (r : Reporting) (ss : List Edit.Step) : Attempt (List Text) :=
  if r.enabled then ss.mapM fun s => do return '\n' :: (← Diff.ofStep r.colored s) else .ok []

/-- A message about two versions of some prose. -/
def prose (r : Reporting) (label : String) (old new : Text) : List Text :=
  if r.enabled then
    let shown := Diff.lines old new 2
    [label.toList ++ if shown.isEmpty then ": no textual changes".toList else ":\n".toList ++ shown]
  else []

end Reporting

/-- A text after some edits, with the messages about them. -/
structure Retouched where
  text : Text
  messages : List Text
  deriving DecidableEq, Repr

/-- Applies edits and shows them. -/
def Reporting.apply (r : Reporting) (t : Text) (es : List Edit) : Attempt Retouched := do
  let ss ← Edit.steps t es
  return ⟨(ss.getLast?.map (·.after)).getD t, ← r.steps ss⟩

namespace Prompt

inductive Outcome where
  | applied
  | unchanged
  | notMatched
  | skipped (reason : Skip)
  deriving DecidableEq, Repr

namespace Outcome

def ofSkip : Skip → Outcome
  | .noMatch _ => notMatched
  | reason => skipped reason

def isMatched (o : Outcome) : Bool := o != notMatched

end Outcome

/-- The edit that brings a prompt to its content, if its text is to change. -/
def edit? (p : Prompt) (t : Text) (span : Span) (identifiers : Literal.Identifiers) :
    Attempt (Option Edit) := do
  let region ← .demand (t.slice? span.start span.stop)
  let rendered ← Literal.render p.content (Style.around t span.start) identifiers
    (Literal.usesEscapes region)
  return if rendered = region then none else some ⟨span.start, span.stop, rendered⟩

/-- Brings one prompt into a text. -/
def apply (r : Reporting) (t : Text) (p : Prompt) : Except Fault (Retouched × Outcome) := do
  match ← (p.locate t).settle with
  | .error reason => return (⟨t, []⟩, .ofSkip reason)
  | .ok (span, identifiers) =>
    let noted := r.prose p.id p.reference p.content
    match ← (p.edit? t span identifiers).settle with
    | .error reason => return (⟨t, noted⟩, .ofSkip reason)
    | .ok none => return (⟨t, noted⟩, .unchanged)
    | .ok (some e) =>
      match ← (r.apply t [e]).settle with
      | .error reason => return (⟨t, noted⟩, .ofSkip reason)
      | .ok done => return (⟨done.text, noted ++ done.messages⟩, .applied)

/-- Brings prompts into a text one after the other, and tells what came of each. -/
def applyAll (r : Reporting) (t : Text) :
    List Prompt → Except Fault (Retouched × List (String × Outcome))
  | [] => .ok (⟨t, []⟩, [])
  | p :: ps => do
    let (first, outcome) ← p.apply r t
    let (last, outcomes) ← applyAll r first.text ps
    return (⟨last.text, first.messages ++ last.messages⟩, (p.id, outcome) :: outcomes)

end Prompt
end Retouch
