import Retouch.Prompt.Apply
import Retouch.Proofs.Text.Boundary

/-! Showing a change never asks for a part of a text that is not there, whatever the offsets, so a
report about edits cannot stop them. Both texts are cut in three, at the offsets rounded down. -/
namespace Retouch
namespace Diff

open Text

/-- The parts of two texts that a change is shown by. -/
structure Parts (old new injected : Text) (start stop : Nat) where
  before : Text
  removed : Text
  after : Text
  newBefore : Text
  added : Text
  newAfter : Text
  old_eq : old = before ++ removed ++ after
  new_eq : new = newBefore ++ added ++ newAfter
  start_eq : old.RoundsDown start before.size
  stop_eq : old.RoundsDown (max stop before.size) (size (before ++ removed))
  newStart_eq : new.RoundsDown before.size newBefore.size
  newStop_eq : new.RoundsDown (before.size + injected.size) (size (newBefore ++ added))

/-- One text of a change, with a sign before it and brackets around what is changed. -/
def line (sign : Char) (before changed after : Text) : Text :=
  [sign, ' '] ++ before ++ ['['] ++ changed ++ [']'] ++ after

variable {old new injected t : Text} {start stop : Nat}

lemma exists_parts (old new injected : Text) (start stop : Nat) : Nonempty (Parts old new injected start stop) := by
  have hcut (t : Text) {m n : Nat} (hle : m ≤ t.boundaryBefore n) (hm : t.isBoundary m) :
      ∃ a b c, t = a ++ b ++ c ∧ a.size = m ∧ size (a ++ b) = t.boundaryBefore n :=
    exists_append_of_isBoundary hm (isBoundary_boundaryBefore t n) hle
  have hstart := isBoundary_boundaryBefore old start
  obtain ⟨before, removed, after, hold, hbefore, hremoved⟩ := hcut old
    (le_boundaryBefore hstart (Nat.le_max_right stop _)) hstart
  rw [← hbefore] at hremoved
  have hnewStart := isBoundary_boundaryBefore new before.size
  obtain ⟨newBefore, added, newAfter, hnew, hnewBefore, hadded⟩ := hcut new
    (le_boundaryBefore hnewStart (Nat.le_add_right_of_le (boundaryBefore_le new before.size))) hnewStart
  exact ⟨⟨before, removed, after, newBefore, added, newAfter, hold, hnew, roundsDown_iff.2 hbefore.symm,
    roundsDown_iff.2 hremoved.symm, roundsDown_iff.2 hnewBefore.symm, roundsDown_iff.2 hadded.symm⟩⟩

lemma demand_parts {a m b : Text} (ht : t = a ++ m ++ b) : Attempt.demand (t.slice? 0 a.size) = .ok a ∧
    Attempt.demand (t.slice? a.size (size (a ++ m))) = .ok m ∧
      Attempt.demand (t.slice? (size (a ++ m)) t.size) = .ok b := by
  subst ht
  have hfirst : (a ++ m ++ b).slice? 0 a.size = some a := slice?_eq_some.2 ⟨[], m ++ b, by simp, rfl, by simp⟩
  have hmiddle : (a ++ m ++ b).slice? a.size (size (a ++ m)) = some m :=
    slice?_eq_some.2 ⟨a, b, rfl, rfl, (size_append a m).symm⟩
  have hlast : (a ++ m ++ b).slice? (size (a ++ m)) (size (a ++ m ++ b)) = some b :=
    slice?_eq_some.2 ⟨a ++ m, [], by simp, rfl, (size_append (a ++ m) b).symm⟩
  rw [hfirst, hmiddle, hlast]
  exact ⟨rfl, rfl, rfl⟩

/-- A change as it is shown without color. -/
def plainLines (before removed after added newAfter : Text) : Text :=
  line '-' before removed after ++ '\n' :: line '+' before added newAfter

/-- A change as it is shown with color. -/
def coloredLines (before removed after added newAfter : Text) : Text :=
  "- ".toList ++ dimmed before ++ red removed ++ dimmed after ++
    "\n+ ".toList ++ dimmed before ++ green added ++ dimmed newAfter

/-- A change is shown by its parts, with context from the texts around them. -/
lemma Parts.change_eq (p : Parts old new injected start stop) (colored : Bool) :
    change old new injected start stop colored = .ok ((if colored then coloredLines else plainLines)
      (takeLast p.before 20) p.removed (p.after.take 20) p.added (p.newAfter.take 20)) := by
  have hmin : min p.newBefore.size (size (p.newBefore ++ p.added)) = p.newBefore.size := by
    rw [size_append]
    omega
  obtain ⟨hbefore, hremoved, hafter⟩ := demand_parts p.old_eq
  obtain ⟨-, hadded, hnewAfter⟩ := demand_parts p.new_eq
  unfold change
  dsimp only
  rw [roundsDown_iff.1 p.start_eq, roundsDown_iff.1 p.stop_eq, roundsDown_iff.1 p.newStart_eq,
    roundsDown_iff.1 p.newStop_eq, hmin, hbefore, hremoved, hafter, hadded, hnewAfter]
  cases colored with
  | true => rfl
  | false => simp [line, plainLines, bind, Except.bind, pure, Except.pure, contextWidth]

theorem exists_change (old new injected : Text) (start stop : Nat) (colored : Bool) :
    ∃ shown, change old new injected start stop colored = .ok shown := by
  obtain ⟨p⟩ := exists_parts old new injected start stop
  exact ⟨_, p.change_eq colored⟩

end Diff

/-- Steps that were taken can always be shown. -/
theorem Reporting.exists_steps (r : Reporting) (ss : List Edit.Step) :
    ∃ shown, r.steps ss = .ok shown := by
  unfold Reporting.steps
  split
  · induction ss with
    | nil => exact ⟨[], rfl⟩
    | cons s ss ih =>
      obtain ⟨first, hfirst⟩ :=
        Diff.exists_change s.before s.after s.edit.content s.edit.start s.edit.stop r.colored
      obtain ⟨rest, hrest⟩ := ih
      refine ⟨('\n' :: first) :: rest, ?_⟩
      rw [List.mapM_cons, hrest]
      simp only [Diff.ofStep, hfirst, bind, Except.bind, pure, Except.pure]
  · exact ⟨[], rfl⟩

end Retouch
