import Retouch.Proofs.Attempt
import Retouch.Proofs.Installation.Backup

/-! Runs of the tool over one bundle. Whatever the steps, the bundle and its backup hold what a cycle or
a restore makes of the two; and the backup keeps the pristine bytes exactly as long as no cycle that writes
meets a bundle that names another release. -/
namespace Retouch.Installation

open HasDisk Disk Retouch.Task

inductive Step where
  | apply (c : Cycle) (dryRun : Bool)
  | restore

/-- The step makes a backup, if there is none. -/
def Step.writes : Step → Bool
  | .apply _ dryRun => !dryRun
  | .restore => false

def Step.work {m : Type → Type} [Monad m] [Host m] (i : Installation) : Step → Task m Unit
  | .apply c dryRun => do
    let _ ← i.apply c dryRun
    return
  | .restore => i.restore

/-- What becomes of the two copies in a step that succeeds. -/
def Copies.follow (k : Copies) : Step → Copies
  | .apply _ true => k
  | .apply c false =>
    let backup := if SameRelease k.backup k.current then k.backup else k.current
    ⟨backup, (retouch? c backup).getD k.current⟩
  | .restore => ⟨k.backup, k.backup⟩

section

variable {σ : Type} [Host (StateM σ)]

/-- The state after steps that all succeed. -/
def run? (i : Installation) (s : σ) : List Step → Option σ
  | [] => some s
  | step :: steps =>
    match outcome (step.work i) s with
    | (.ok (), s') => run? i s' steps
    | (.error _, _) => none

lemma run?_append (i : Installation) (s : σ) (before after : List Step) :
    run? i s (before ++ after) = (run? i s before).bind (run? i · after) := by
  induction before generalizing s with
  | nil => rfl
  | cons step before ih =>
    rw [List.cons_append, run?, run?]
    rcases outcome (step.work i) s with ⟨f | u, s'⟩
    · rfl
    · exact ih s'

end

variable {σ : Type} [Host (StateM σ)] {s s' : σ} {i : Installation} {k : Copies} {c : Cycle}
  {pristine : List UInt8} {r : Cycle.Report}

lemma runOn_eq_ok {t text : Text} (h : outcome (runOn c t) s = (.ok (text, r), s')) :
    ∃ done : Retouched, c.run t = .ok (done, r) ∧ done.text = text := by
  obtain ⟨⟨done, report⟩, s₁, hrun, h⟩ := bind_eq_ok.1 h
  obtain ⟨u, s₂, -, h⟩ := bind_eq_ok.1 h
  cases h
  rw [outcome_ofExcept, Prod.mk.injEq, Attempt.mapError_eq_ok] at hrun
  exact ⟨done, hrun.1, rfl⟩

lemma work_apply_eq_ok {dryRun : Bool}
    (h : outcome ((Step.apply c dryRun).work i) s = (.ok (), s')) :
    ∃ r, outcome (i.apply c dryRun) s = (.ok r, s') := by
  obtain ⟨r, s₁, happly, h⟩ := bind_eq_ok.1 h
  cases h
  exact ⟨r, happly⟩

/-- The source of a cycle that writes is the backup, after it has been seen to. -/
lemma source_eq_ok {source : Path} (h : outcome (i.source false) s = (.ok source, s')) :
    outcome i.keepBackup s = (.ok (), s') ∧ source = i.backup := by
  obtain ⟨u, s₁, hkeep, h⟩ := bind_eq_ok.1 h
  cases h
  exact ⟨hkeep, rfl⟩

variable [HasDisk σ] [Faithful σ]

/-- Whether or not it writes, a cycle works on the bytes that its source holds. -/
lemma prepare_eq_ok {bundle : Bundle} {dryRun : Bool}
    (h : outcome (i.prepare c dryRun) s = (.ok (bundle, r), s')) :
    ∃ source s₁ bytes, outcome (i.source dryRun) s = (.ok source, s₁) ∧
      (disk s₁).read source = .ok bytes ∧ retouch? c bytes = some bundle.encode ∧
      reportOn? c bytes = some r ∧ Leads [] s₁ s' := by
  obtain ⟨source, s₁, hsource, h⟩ := bind_eq_ok.1 h
  obtain ⟨bytes, s₂, hread, h⟩ := bind_eq_ok.1 h
  obtain ⟨decoded, s₃, hdecode, h⟩ := bind_eq_ok.1 h
  obtain ⟨⟨text, report⟩, s₄, hrun, h⟩ := bind_eq_ok.1 h
  cases h
  rw [outcome_ofExcept, Prod.mk.injEq, decode, Attempt.mapError_eq_ok] at hdecode
  obtain ⟨hdecode, rfl⟩ := hdecode
  obtain ⟨done, hdone, rfl⟩ := runOn_eq_ok hrun
  obtain ⟨hbytes, -, hl⟩ := Task.read_eq_ok _ _ hread
  refine ⟨source, s₁, bytes, hsource, hbytes, ?_, ?_,
    hl.trans ((within_runOn c [] decoded.text).leads hrun)⟩
  · simp [retouch?, hdecode, hdone, Except.toOption]
  · simp [reportOn?, hdecode, hdone, Except.toOption]

/-- All that a cycle that writes does, if it succeeds. -/
lemma phases_of_apply (h : outcome (i.apply c false) s = (.ok r, s')) :
    ∃ s₁ s₂ s₃ bytes new, outcome i.keepBackup s = (.ok (), s₁) ∧
      (disk s₁).read i.backup = .ok bytes ∧ retouch? c bytes = some new ∧
      reportOn? c bytes = some r ∧ Leads [] s₁ s₂ ∧
      outcome (replaceFile i.target new) s₂ = (.ok (), s₃) ∧
      outcome (i.keepBooks c r) s₃ = (.ok (), s') := by
  rw [apply_eq] at h
  obtain ⟨⟨bundle, report⟩, s₂, hprepare, h⟩ := bind_eq_ok.1 h
  obtain ⟨u, s₃, hreplace, h⟩ := bind_eq_ok.1 h
  obtain ⟨u', s₄, hbooks, h⟩ := bind_eq_ok.1 h
  cases h
  obtain ⟨source, s₁, bytes, hsource, hread, hnew, hreport, hl⟩ := prepare_eq_ok hprepare
  obtain ⟨hkeep, rfl⟩ := source_eq_ok hsource
  exact ⟨s₁, s₂, s₃, bytes, _, hkeep, hread, hnew, hreport, hl, hreplace, hbooks⟩

lemma apply_eq_ok (h : outcome (i.apply c false) s = (.ok r, s')) :
    ∃ s₁ s₂ s₃ bytes new, outcome i.keepBackup s = (.ok (), s₁) ∧
      (disk s₁).read i.backup = .ok bytes ∧ retouch? c bytes = some new ∧ Leads [] s₁ s₂ ∧
      outcome (replaceFile i.target new) s₂ = (.ok (), s₃) ∧ Leads i.books s₃ s' := by
  obtain ⟨s₁, s₂, s₃, bytes, new, hkeep, hread, hnew, -, hl, hreplace, hbooks⟩ := phases_of_apply h
  exact ⟨s₁, s₂, s₃, bytes, new, hkeep, hread, hnew, hl, hreplace,
    (within_keepBooks i c r).leads hbooks⟩

/-- All that a restore does, if it succeeds. -/
lemma phases_of_restore (h : outcome i.restore s = (.ok (), s')) :
    ∃ s₁ s₂ bytes, (disk s).kind? i.backup = some .file ∧ (disk s).read i.backup = .ok bytes ∧
      Leads [] s s₁ ∧ outcome (replaceFile i.target bytes) s₁ = (.ok (), s₂) ∧
      outcome i.forget s₂ = (.ok (), s') := by
  by_cases hfile : (disk s).kind? i.backup = some .file
  · rw [restore, outcome_bind, outcome_isFile, decide_eq_true hfile] at h
    obtain ⟨bytes, s₁, hread, h⟩ := bind_eq_ok.1 h
    obtain ⟨u, s₂, hreplace, h⟩ := bind_eq_ok.1 h
    obtain ⟨hbytes, -, hl⟩ := Task.read_eq_ok _ _ hread
    exact ⟨s₁, s₂, bytes, hfile, hbytes, hl, hreplace, h⟩
  · rw [restore, outcome_bind, outcome_isFile, decide_eq_false hfile] at h
    cases h

lemma restore_eq_ok (h : outcome i.restore s = (.ok (), s')) :
    ∃ s₁ s₂ bytes, (disk s).kind? i.backup = some .file ∧ (disk s).read i.backup = .ok bytes ∧
      Leads [] s s₁ ∧ outcome (replaceFile i.target bytes) s₁ = (.ok (), s₂) ∧
      Leads i.books s₂ s' := by
  obtain ⟨s₁, s₂, bytes, hfile, hread, hl, hreplace, hforget⟩ := phases_of_restore h
  exact ⟨s₁, s₂, bytes, hfile, hread, hl, hreplace, (within_forget i).leads hforget⟩

/-- A cycle that writes, from the moment when the backup has been seen to. -/
lemma Backed.of_apply {s₁ : σ} (h : Backed i k s₁) (hkeep : outcome i.keepBackup s = (.ok (), s₁))
    (happly : outcome (i.apply c false) s = (.ok r, s')) :
    Backed i { k with current := (retouch? c k.backup).getD k.current } s' := by
  obtain ⟨s₁', s₂, s₃, bytes, new, hkeep', hread, hnew, hl, hreplace, hbooks⟩ := apply_eq_ok happly
  rw [hkeep] at hkeep'
  cases hkeep'
  obtain rfl : bytes = k.backup := Except.ok.inj (hread.symm.trans h.read_backup)
  rw [hnew]
  exact (h.of_leads hl).of_replaceFile hreplace hbooks

/-- What one step does to the two copies. -/
theorem Backed.step (h : Backed i k s) (step : Step)
    (hstep : outcome (step.work i) s = (.ok (), s')) : Backed i (k.follow step) s' := by
  cases step with
  | apply c dryRun =>
    obtain ⟨r, happly⟩ := work_apply_eq_ok hstep
    cases dryRun with
    | true => exact h.of_leads ((within_dryRun i c).leads happly)
    | false =>
      obtain ⟨s₁, -, -, -, -, hkeep, -⟩ := apply_eq_ok happly
      exact (h.keepBackup hkeep).of_apply hkeep happly
  | restore =>
    obtain ⟨s₁, s₂, bytes, -, hread, hl, hreplace, hbooks⟩ := restore_eq_ok hstep
    obtain rfl : bytes = k.backup := Except.ok.inj (hread.symm.trans h.read_backup)
    exact (h.of_leads hl).of_replaceFile hreplace hbooks

theorem Backed.run (h : Backed i k s) {steps : List Step} (hrun : run? i s steps = some s') :
    Backed i (steps.foldl Copies.follow k) s' := by
  induction steps generalizing s k with
  | nil =>
    cases hrun
    exact h
  | cons step steps ih =>
    rw [run?] at hrun
    split at hrun
    · next s₁ hstep => exact ih (h.step step hstep) hrun
    · cases hrun

/-- The first cycle that writes makes the backup; until then the disk is as it was. -/
theorem Unbacked.run (h : Unbacked i pristine s) {steps : List Step}
    (hrun : run? i s steps = some s') :
    if steps.any Step.writes then Backed i (steps.foldl Copies.follow ⟨pristine, pristine⟩) s'
    else Unbacked i pristine s' := by
  induction steps generalizing s with
  | nil =>
    cases hrun
    exact h
  | cons step steps ih =>
    rw [run?] at hrun
    split at hrun
    · next s₁ hstep =>
      cases step with
      | apply c dryRun =>
        obtain ⟨r, happly⟩ := work_apply_eq_ok hstep
        cases dryRun with
        | true => exact ih (h.of_leads ((within_dryRun i c).leads happly)) hrun
        | false =>
          obtain ⟨s₀, -, -, -, -, hkeep, -⟩ := apply_eq_ok happly
          have h₁ := (h.keepBackup hkeep).of_apply hkeep happly
          have hfirst : (Copies.mk pristine pristine).follow (.apply c false) =
              ⟨pristine, (retouch? c pristine).getD pristine⟩ := by
            simp [Copies.follow, SameRelease]
          rw [← hfirst] at h₁
          exact h₁.run hrun
      | restore =>
        obtain ⟨-, -, -, hfile, -⟩ := restore_eq_ok hstep
        exact absurd hfile h.kind?
    · cases hrun

end Retouch.Installation
