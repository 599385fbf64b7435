import Retouch.Proofs.Installation.Atomic
import Retouch.Proofs.Machine.Frail

/-! A cycle that fails. On a machine where any reading or writing can be refused, a failed cycle has left
the bundle alone exactly if it has not come past the replacement, or has replaced the bundle by the same
bytes. Keeping the books is all that can fail later, and does so when a file of hashes is damaged. -/
namespace Retouch.Installation

open HasDisk Retouch.Task

theorem read_target_of_failed_apply {i : Installation} {c : Cycle} {dryRun : Bool}
    {s s' : FrailMachine} {f : Failure} {old : List UInt8}
    (hold : (disk s).read i.target = .ok old) (hsep : i.Separate (disk s))
    (hfresh : Fresh i.target s) (hfail : outcome (i.apply c dryRun) s = (.error f, s')) :
    ((disk s').read i.target = .ok old ↔
        ∀ new, i.replacement? c dryRun s = some new → new = old) ∧
      ∀ new, i.replacement? c dryRun s = some new →
        (disk s').read i.target = .ok new ∧
          ∃ (r : Cycle.Report) (s₁ : FrailMachine),
            outcome (i.keepBooks c r) s₁ = (.error f, s') := by
  have hread : (disk s').read i.target = .ok ((i.replacement? c dryRun s).getD old) := by
    have h := read_target_of_apply c dryRun hold hsep hfresh
    rw [hfail] at h
    exact h
  rw [hread]
  cases hnew : i.replacement? c dryRun s with
  | none => simp
  | some new =>
    have hbooks := fails_in_books hfail hnew
    simpa using hbooks

/-- A bundle with a prompt in it, and a file of hashes that ends too early. -/
def damaged : FrailMachine where
  machine := .ofDisk
    ⟨.ofList [(["w"], .folder 0o755), (["w", "cli.js"], .file 0), (["w", "st"], .folder 0o755),
      (["w", "st", "applied_hashes.json"], .file 1)],
    .ofList [(0, ⟨"Hi.".toUTF8.toList, 0o644⟩), (1, ⟨"\x7b".toUTF8.toList, 0o644⟩)], ["w"]⟩
  refusals := []

/-- A cycle that gives the prompt another text. -/
def greeting : Cycle where
  settings := .default
  prompts := [⟨"hi", "", "", ["Hi.".toList], [], .empty, [], some "Ho.".toList⟩]
  reporting := ⟨false, false⟩

/-- The cycle fails on the damaged file, and the bundle has the new text by then. -/
theorem read_target_of_damaged :
    let i : Installation := ⟨"cli.js", "st"⟩
    let s' := (outcome (i.apply greeting false) damaged).2
    (disk damaged).read i.target = .ok "Hi.".toUTF8.toList ∧
      (outcome (i.apply greeting false) damaged).1 =
        .error ⟨["parsing hash index st/applied_hashes.json"], some (.json .incomplete)⟩ ∧
      (disk s').read i.target = .ok "Ho.".toUTF8.toList := by
  intro i s'
  have hold : (disk damaged).read i.target = .ok "Hi.".toUTF8.toList := by decide +kernel
  have hsep : i.Separate (disk damaged) := by
    refine ⟨by decide +kernel, fun n _ hn => ?_⟩
    have hnone : Disk.entry? (disk damaged) ((disk damaged).destination i.backup) = none := by
      decide +kernel
    rw [Disk.Points, hnone] at hn
    cases hn
  have hfresh : Fresh i.target damaged := fresh_of_visible _ (by decide +kernel)
  have hfail : (outcome (i.apply greeting false) damaged).1 =
      .error ⟨["parsing hash index st/applied_hashes.json"], some (.json .incomplete)⟩ := by
    decide +kernel
  have hnew : i.replacement? greeting false damaged = some "Ho.".toUTF8.toList := by
    decide +kernel
  have hread := read_target_of_failed_apply hold hsep hfresh (Prod.ext hfail rfl)
  exact ⟨hold, hfail, (hread.2 _ hnew).1⟩

end Retouch.Installation
