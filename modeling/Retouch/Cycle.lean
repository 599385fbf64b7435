import Retouch.Prompt.Apply
import Retouch.Writer.Catalog

/-! A cycle over the text of a bundle: every writer in order, then the prompts. What is skipped
leaves the text as it was. -/
namespace Retouch

/-- What a cycle brings into a bundle, and how it tells about it. -/
structure Cycle where
  settings : Settings
  prompts : List Prompt
  reporting : Reporting

inductive WriterOutcome where
  | applied
  | skipped (reason : Skip)
  deriving DecidableEq, Repr

structure Cycle.Report where
  release : Option Release
  writers : List (String × WriterOutcome)
  prompts : List (String × Prompt.Outcome)
  deriving DecidableEq, Repr

namespace Cycle.Report

def applied (r : Report) : List String :=
  r.writers.filterMap fun (id, outcome) => if outcome = .applied then some id else none

def skipped (r : Report) : List (String × Skip) :=
  r.writers.filterMap fun (id, outcome) =>
    match outcome with
    | .applied => none
    | .skipped reason => some (id, reason)

def releaseText (r : Report) : Option String := r.release.map Release.render

def countPrompts (r : Report) (wanted : Prompt.Outcome → Bool) : Nat :=
  r.prompts.countP (wanted ·.2)

def matched (r : Report) : Nat := r.countPrompts (·.isMatched)

def unmatched (r : Report) : Nat := r.countPrompts (!·.isMatched)

/-- The counts of a cycle. -/
def summary (r : Report) : Json := .object [
  ("version", .ofOption r.releaseText),
  ("applied", .number r.applied.length),
  ("skipped", .number r.skipped.length),
  ("prompts_matched", .number r.matched),
  ("prompts_unmatched", .number r.unmatched)]

def promptLine (id : String) : Prompt.Outcome → List String
  | .notMatched => ["  ? " ++ id]
  | .skipped reason => ["  ! " ++ id ++ ": " ++ reason.message]
  | .applied | .unchanged => []

/-- The report in lines. -/
def lines (r : Report) : List String :=
  ("target version " ++ r.releaseText.getD "unknown") ::
    ("patches: " ++ r.applied.length.repr ++ " applied, " ++ r.skipped.length.repr ++ " skipped") ::
    r.applied.map ("  + " ++ ·) ++
    r.skipped.map (fun (id, reason) => "  - " ++ id ++ ": " ++ reason.message) ++
    if r.prompts.isEmpty then []
    else ("prompts: " ++ r.matched.repr ++ " matched, " ++ r.unmatched.repr ++ " not matched") ::
      r.prompts.flatMap fun (id, outcome) => promptLine id outcome

end Cycle.Report

/-- Applies what one writer plans. -/
def Writer.apply (w : Writer) (c : Cycle) (release : Option Release) (t : Text) :
    Except Fault (Retouched × WriterOutcome) := do
  match ← (w.run c.settings release t >>= c.reporting.apply t).settle with
  | .ok done => return (done, .applied)
  | .error reason => return (⟨t, []⟩, .skipped reason)

/-- Runs writers one after the other, and tells what came of each. -/
def Writer.applyAll (c : Cycle) (release : Option Release) (t : Text) :
    List Writer → Except Fault (Retouched × List (String × WriterOutcome))
  | [] => .ok (⟨t, []⟩, [])
  | w :: ws => do
    let (first, outcome) ← w.apply c release t
    let (last, outcomes) ← applyAll c release first.text ws
    return (⟨last.text, first.messages ++ last.messages⟩, (w.id, outcome) :: outcomes)

/-- Runs every writer and the prompt stage. -/
def Cycle.run (c : Cycle) (t : Text) : Except Fault (Retouched × Report) := do
  let release := Release.ofBanner? t
  let (first, writers) ← Writer.applyAll c release t Writer.all
  let (last, prompts) ← Prompt.applyAll c.reporting first.text c.prompts
  return (⟨last.text, first.messages ++ last.messages⟩, ⟨release, writers, prompts⟩)

end Retouch
