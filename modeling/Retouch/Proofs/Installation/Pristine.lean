import Mathlib.Data.List.Induction
import Retouch.Proofs.Installation.Runs

/-! When the pristine bytes of a bundle are safe. A backup is taken for one of an older release if the bundle
names another release, and then it is replaced by the bundle as it is. So the pristine bytes survive a run
exactly if no cycle that writes meets a bundle in which an earlier cycle has changed the release. -/
namespace Retouch.Installation

open HasDisk Disk Retouch.Task

variable {i : Installation} {k : Copies} {pristine : List UInt8} {steps before after : List Step}

/-- Once there is a backup it holds the pristine bytes, and a restore brings them back. -/
def KeepsPristine (i : Installation) (pristine : List UInt8) (s : Machine) (steps : List Step) :
    Prop :=
  ∀ before after s₁, steps = before ++ after → run? i s before = some s₁ →
    before.any Step.writes = true →
      (disk s₁).read i.backup = .ok pristine ∧
        ∀ s₂, outcome i.restore s₁ = (.ok (), s₂) →
          (disk s₂).read i.target = .ok pristine ∧ outcome i.state s₂ = (.ok .clean, s₂)

/-- Whenever a cycle that writes begins, the bundle names no release or the pristine one. -/
def Steady (pristine : List UInt8) (steps : List Step) : Prop :=
  ∀ before c after, steps = before ++ .apply c false :: after →
    SameRelease pristine (before.foldl Copies.follow ⟨pristine, pristine⟩).current

lemma foldl_follow_of_not_writes (h : steps.any Step.writes = false) :
    steps.foldl Copies.follow ⟨pristine, pristine⟩ = ⟨pristine, pristine⟩ := by
  induction steps with
  | nil => rfl
  | cons step steps ih =>
    obtain ⟨hstep, hsteps⟩ := Bool.or_eq_false_iff.1 h
    have hfollow : (Copies.mk pristine pristine).follow step = ⟨pristine, pristine⟩ := by
      cases step with
      | apply c dryRun =>
        cases dryRun with
        | true => rfl
        | false => cases hstep
      | restore => rfl
    rw [List.foldl_cons, hfollow, ih hsteps]

/-- In a steady run the backup stays. -/
lemma backup_of_steady (hsteady : Steady pristine steps) (hsteps : steps = before ++ after) :
    (before.foldl Copies.follow ⟨pristine, pristine⟩).backup = pristine := by
  induction before using List.reverseRecOn generalizing after with
  | nil => rfl
  | append_singleton before step ih =>
    rw [List.append_assoc, List.singleton_append] at hsteps
    have hbefore := ih hsteps
    rw [List.foldl_append, List.foldl_cons, List.foldl_nil]
    cases step with
    | apply c dryRun =>
      cases dryRun with
      | true => exact hbefore
      | false =>
        have hsame := hsteady before c after hsteps
        rw [Copies.follow, hbefore, if_pos hsame]
    | restore => exact hbefore

/-- A run is steady if none of its cycles makes another release of the pristine bundle. -/
theorem steady_of_sameRelease
    (h : ∀ c new, .apply c false ∈ steps → retouch? c pristine = some new →
      SameRelease pristine new) : Steady pristine steps := by
  have hcopies : ∀ before after, steps = before ++ after →
      (before.foldl Copies.follow ⟨pristine, pristine⟩).backup = pristine ∧
        SameRelease pristine (before.foldl Copies.follow ⟨pristine, pristine⟩).current := by
    intro before
    induction before using List.reverseRecOn with
    | nil => exact fun _ _ => ⟨rfl, .inr rfl⟩
    | append_singleton before step ih =>
      intro after hsteps
      rw [List.append_assoc, List.singleton_append] at hsteps
      obtain ⟨hbackup, hsame⟩ := ih _ hsteps
      rw [List.foldl_append, List.foldl_cons, List.foldl_nil]
      cases step with
      | apply c dryRun =>
        cases dryRun with
        | true => exact ⟨hbackup, hsame⟩
        | false =>
          rw [Copies.follow, hbackup, if_pos hsame]
          refine ⟨rfl, ?_⟩
          cases hnew : retouch? c pristine with
          | none => exact hsame
          | some new => exact h c new (by simp [hsteps]) hnew
      | restore => exact ⟨hbackup, .inr (by rw [Copies.follow, hbackup])⟩
  exact fun before c after hsteps => (hcopies before _ hsteps).2

/-- A bundle that is equal to its backup is told to be clean. -/
lemma outcome_state_of_restored {s : Machine} (h : Backed i ⟨pristine, pristine⟩ s) :
    outcome i.state s = (.ok .clean, s) := by
  obtain ⟨m, hm, -⟩ := h.backup
  have hfile : (disk s).kind? i.backup = some .file := kind?_eq_file.2 ⟨m, hm⟩
  rw [state, outcome_bind, outcome_isFile, decide_eq_true hfile]
  dsimp only
  rw [Bool.not_true, if_neg Bool.false_ne_true, outcome_bind_of_ok (outcome_read _ _ h.read_backup),
    outcome_bind_of_ok (outcome_read _ _ h.target), if_pos rfl, outcome_pure]

/-- The pristine bytes survive exactly the steady runs. -/
theorem keepsPristine_iff {s s' : Machine} (h : Unbacked i pristine s)
    (hrun : run? i s steps = some s') : KeepsPristine i pristine s steps ↔ Steady pristine steps := by
  constructor
  · intro hkeeps before c after hsteps
    have hsplit : steps = (before ++ [.apply c false]) ++ after := by rw [hsteps]; simp
    obtain ⟨s₂, hrun₂⟩ : ∃ s₂, run? i s (before ++ [.apply c false]) = some s₂ := by
      rw [hsplit, run?_append] at hrun
      exact (Option.bind_eq_some_iff.1 hrun).imp fun _ h => h.1
    obtain ⟨s₁, hrun₁, -⟩ := Option.bind_eq_some_iff.1 ((run?_append _ _ _ _).symm.trans hrun₂)
    have hbackup : (before.foldl Copies.follow ⟨pristine, pristine⟩).backup = pristine := by
      have hbefore := h.run hrun₁
      cases hwrites : before.any Step.writes with
      | true =>
        rw [if_pos hwrites] at hbefore
        have hread := (hkeeps before _ s₁ hsteps hrun₁ hwrites).1
        exact Except.ok.inj (hbefore.read_backup.symm.trans hread)
      | false => rw [foldl_follow_of_not_writes hwrites]
    have hwrites : (before ++ [Step.apply c false]).any Step.writes = true := by simp [Step.writes]
    have hafter := h.run hrun₂
    rw [if_pos hwrites, List.foldl_append, List.foldl_cons, List.foldl_nil] at hafter
    have hread := (hkeeps _ after s₂ hsplit hrun₂ hwrites).1
    have hlast := Except.ok.inj (hafter.read_backup.symm.trans hread)
    -- a backup that has been replaced is of another release, and so it is not the pristine one
    by_contra hother
    rw [Copies.follow, hbackup, if_neg hother] at hlast
    dsimp only at hlast
    exact hother (by rw [hlast]; exact .inr rfl)
  · intro hsteady before after s₁ hsteps hbefore hwrites
    have hbacked := h.run hbefore
    rw [if_pos hwrites] at hbacked
    have hbackup := backup_of_steady hsteady hsteps
    refine ⟨hbackup ▸ hbacked.read_backup, fun s₂ hrestore => ?_⟩
    have hrestored := hbacked.step .restore hrestore
    rw [Copies.follow, hbackup] at hrestored
    exact ⟨hrestored.target, outcome_state_of_restored hrestored⟩

/-- A bundle that names its release. -/
def named : Machine := .ofDisk
  ⟨.ofList [(["w"], .folder 0o755), (["w", "cli.js"], .file 0)],
    .ofList [(0, ⟨"// Version: 1.0.0".toUTF8.toList, 0o644⟩)], ["w"]⟩

/-- A cycle with a prompt that is found in the line of the release. -/
def upgrading : Cycle where
  settings := .default
  prompts := [⟨"new", "", "", ["1.0.0".toList], [], .empty, [], some "2.0.0".toList⟩]
  reporting := ⟨false, false⟩

/-- A later cycle takes what the first one has made of the bundle for a new release. -/
theorem not_keepsPristine_upgrading :
    let i : Installation := ⟨"cli.js", "st"⟩
    let pristine := "// Version: 1.0.0".toUTF8.toList
    let steps := [Step.apply upgrading false, Step.apply { upgrading with prompts := [] } false]
    Unbacked i pristine named ∧ (run? i named steps).isSome = true ∧
      ¬KeepsPristine i pristine named steps := by
  intro i pristine steps
  have hunbacked : Unbacked i pristine named := by
    refine ⟨by decide +kernel, fun n hn => ?_, by decide +kernel,
      fresh_of_visible _ (by decide +kernel)⟩
    have hnone : entry? (disk named) ((disk named).destination i.backup) = none := by
      decide +kernel
    rw [Points, hnone] at hn
    cases hn
  have hrun : (run? i named steps).isSome = true := by decide +kernel
  obtain ⟨s', hs'⟩ := Option.isSome_iff_exists.1 hrun
  refine ⟨hunbacked, hrun, fun hkeeps => ?_⟩
  have hsteady := (keepsPristine_iff hunbacked hs').1 hkeeps
  have hsame := hsteady [.apply upgrading false] { upgrading with prompts := [] } [] rfl
  revert hsame
  decide +kernel

end Retouch.Installation
