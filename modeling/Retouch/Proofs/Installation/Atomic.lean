import Retouch.Proofs.Installation.Phases

/-! What a cycle leaves in the bundle, whether it succeeds or fails. The bundle is replaced in one step, so
it holds the old bytes or the new ones. It holds the old ones as long as that step has not been taken; what
fails after it finds the new ones in place. -/
namespace Retouch.Installation

open HasDisk Disk Retouch.Task

variable {σ : Type} [HasDisk σ] {s s' : σ} {i : Installation}

/-- No file has one of the fresh names to come. -/
def Fresh (p : Path) (s : σ) : Prop :=
  ∀ k, ticks s ≤ k → ∀ n, ¬(disk s).Points (freshPath p k) n

/-- The bundle lies apart from the books. A backup may be the bundle under another name, but not one
that comes into reach only when folders are made. -/
structure Separate (i : Installation) (d : Disk) : Prop where
  books : ∀ p ∈ i.books, d.destination p ≠ d.destination i.target
  backup : ∀ n, d.fileNumber i.target = .ok n → d.Points i.backup n →
    d.fileNumber i.backup = .ok n

lemma ne_freshName {name : String} (h : name.toList.head? ≠ some '.') (k : Nat) :
    name ≠ freshName k := by
  rintro rfl
  rw [toList_freshName] at h
  exact h rfl

/-- The files of the state have names of their own. -/
lemma exists_name_of_mem {p : Path} (hp : p ∈ i.backup :: i.books) :
    ∃ (folder : Path) (name : String), p = folder.join ⟨name⟩ ∧ IsName name ∧
      ∀ k, name ≠ freshName k := by
  simp only [books, List.mem_cons, List.not_mem_nil, or_false] at hp
  rcases hp with rfl | rfl | rfl | rfl
  · exact ⟨i.folder, "cli.js.backup", rfl, ⟨by decide, rfl, rfl⟩, ne_freshName (by decide)⟩
  · exact ⟨i.folder, "applied_hashes.json", rfl, ⟨by decide, rfl, rfl⟩, ne_freshName (by decide)⟩
  · exact ⟨i.folder, "original_hashes.json", rfl, ⟨by decide, rfl, rfl⟩, ne_freshName (by decide)⟩
  · exact ⟨i.folder, "apply_log.jsonl", rfl, ⟨by decide, rfl, rfl⟩, ne_freshName (by decide)⟩

lemma destination_ne_freshPath {p : Path} (hp : p ∈ i.backup :: i.books) (d : Disk) (q : Path)
    (k : Nat) : d.destination (freshPath q k) ≠ d.destination p := by
  obtain ⟨folder, name, rfl, hname, hne⟩ := exists_name_of_mem hp
  exact d.destination_join_ne _ _ (isName_freshName k) hname (hne k).symm

/-- Where no name starts with a dot, every fresh name is free. -/
lemma fresh_of_visible (p : Path)
    (h : ∀ e ∈ (disk s).entries.entries, ∀ name ∈ e.1.getLast?, name.toList.head? ≠ some '.') :
    Fresh p s := by
  intro k _ n hentry
  have hlast : ((disk s).destination (freshPath p k)).getLast? = some (freshName k) :=
    destination_join _ _ (isName_freshName k)
  rw [Points] at hentry
  generalize (disk s).destination (freshPath p k) = q at hentry hlast
  rw [entry?_of_ne_nil (ne_nil_of_not_isFolder (not_isFolder_of_file hentry))] at hentry
  have hvisible := h _ (SortedMap.mem_of_get? hentry) (freshName k) hlast
  exact ne_freshName hvisible k rfl

lemma Fresh.of_leads {p : Path} (h : Fresh p s) {ps : List Path} (hps : ps ⊆ i.backup :: i.books)
    (hl : Leads ps s s') : Fresh p s' := by
  intro k hk n hentry
  rw [Points, hl.1.destination] at hentry
  rcases hl.1.fresh _ _ hentry with hold | ⟨⟨q, hq, heq⟩, -⟩
  · exact h k (Nat.le_trans hl.2 hk) n hold
  · exact destination_ne_freshPath (hps hq) _ _ _ heq

lemma Fresh.vacant {p : Path} (h : Fresh p s) : Vacant p s := h _ (Nat.le_refl _)

lemma Fresh.not_points {p : Path} (h : Fresh p s) {q : Path} (hq : q ∈ [freshPath p (ticks s)])
    (n : Nat) : ¬(disk s).Points q n := by
  obtain rfl := List.mem_singleton.1 hq
  exact h.vacant n

variable [Host (StateM σ)] {c : Cycle} {dryRun : Bool} {old : List UInt8}

/-- The bytes that a cycle has put in the place of the bundle by the time it ends. -/
def replacement? (i : Installation) (c : Cycle) (dryRun : Bool) (s : σ) : Option (List UInt8) :=
  match outcome (i.prepare c dryRun) s with
  | (.error _, _) => none
  | (.ok (bundle, _), s₁) =>
    if dryRun then none
    else
      match outcome (replaceFile i.target bundle.encode) s₁ with
      | (.error _, _) => none
      | (.ok (), _) => some bundle.encode

variable [Faithful σ]

/-- A backup that is the bundle itself is of the same release, so it stays. -/
lemma leads_keepBackup_of_shared {n : Nat} (htarget : (disk s).fileNumber i.target = .ok n)
    (hbackup : (disk s).fileNumber i.backup = .ok n) : Leads [] s (outcome i.keepBackup s).2 := by
  have hfile : (disk s).kind? i.backup = some .file := kind?_eq_file.2 ⟨n, hbackup⟩
  have hbytes {p : Path} (hp : (disk s).fileNumber p = .ok n) {bytes : List UInt8}
      (h : (disk s).read p = .ok bytes) : bytes = ((disk s).file n).bytes := by
    obtain ⟨m, hm, rfl⟩ := read_eq_ok.1 h
    rw [hp] at hm
    cases hm
    rfl
  rw [keepBackup, outcome_bind, outcome_isFile, hfile]
  simp only [decide_true, Bool.not_true, Bool.false_eq_true, ↓reduceIte]
  rw [outcome_bind]
  rcases heq : outcome (Task.read "target" i.target) s with ⟨f | current, s₁⟩
  · exact (within_read _ _).leads heq
  · obtain ⟨hcurrent, hdisk, hl⟩ := Task.read_eq_ok _ _ heq
    refine hl.trans ?_
    dsimp only
    rw [outcome_bind]
    rcases heq₁ : outcome (Task.read "backup" i.backup) s₁ with ⟨f | pristine, s₂⟩
    · exact (within_read _ _).leads heq₁
    · obtain ⟨hpristine, -, hl₁⟩ := Task.read_eq_ok _ _ heq₁
      rw [hdisk] at hpristine
      obtain rfl := hbytes htarget hcurrent
      obtain rfl := hbytes hbackup hpristine
      simpa using hl₁

/-- Preparing writes under no name of the bundle. -/
lemma exists_leads_prepare (c : Cycle) (dryRun : Bool) {n : Nat}
    (hn : (disk s).fileNumber i.target = .ok n) (hsep : i.Separate (disk s)) :
    ∃ ps ⊆ [i.backup], (∀ p ∈ ps, ¬(disk s).Points p n) ∧
      Leads ps s (outcome (i.prepare c dryRun) s).2 := by
  by_cases hshared : (disk s).Points i.backup n
  · refine ⟨[], List.nil_subset _, fun p hp => absurd hp List.not_mem_nil, leads_prepare i c ?_⟩
    have hkeep := leads_keepBackup_of_shared hn (hsep.backup n hn hshared)
    cases dryRun with
    | true => exact leads_bind (within_isFile _ s) fun _ => .pure _ _
    | false => exact leads_bind hkeep fun _ => .pure _ _
  · refine ⟨[i.backup], List.Subset.refl _, fun p hp => ?_, within_prepare i c dryRun s⟩
    obtain rfl := List.mem_singleton.1 hp
    exact hshared

/-- A replacement that fails keeps the old bytes, and one that succeeds is not undone by the books. -/
lemma read_target_of_replaceFile {n : Nat} (hn : (disk s).fileNumber i.target = .ok n)
    (hbooks : ∀ p ∈ i.books, (disk s).destination p ≠ (disk s).destination i.target)
    (hfresh : Fresh i.target s) (new : List UInt8) :
    match outcome (replaceFile i.target new) s with
    | (.error _, s') => (disk s').read i.target = .ok ((disk s).file n).bytes
    | (.ok (), s') => ∀ s'', Leads i.books s' s'' → (disk s'').read i.target = .ok new := by
  have hreplace := replaceFile_cases hfresh.vacant new
  split at hreplace
  · next s' heq =>
    rw [heq]
    intro s'' hlater
    obtain ⟨k, hk, hbytes⟩ := read_eq_ok.1 hreplace.1.read
    have hpoints := (fileNumber_eq_ok.1 hk).2
    rw [hlater.1.read hk fun p hp => hreplace.1.apart hpoints (hbooks p hp), hbytes]
  · next f s' heq =>
    rw [heq]
    exact hreplace.read hn fun q hq => hfresh.not_points hq n

/-- After a cycle, which may have failed anywhere, the bundle holds what has replaced it, or else the
bytes that it held before. -/
theorem read_target_of_apply (c : Cycle) (dryRun : Bool) (hold : (disk s).read i.target = .ok old)
    (hsep : i.Separate (disk s)) (hfresh : Fresh i.target s) :
    (disk (outcome (i.apply c dryRun) s).2).read i.target =
      .ok ((i.replacement? c dryRun s).getD old) := by
  obtain ⟨n, hn, rfl⟩ := read_eq_ok.1 hold
  obtain ⟨ps, hps, hapart, hprepare⟩ := exists_leads_prepare c dryRun hn hsep
  have hkept := hprepare.1.read hn hapart
  rw [apply_eq, outcome_bind, replacement?]
  rcases heq : outcome (i.prepare c dryRun) s with ⟨f | ⟨bundle, report⟩, s₁⟩
  · rw [heq] at hkept
    exact hkept
  · rw [heq] at hprepare hkept
    cases dryRun with
    | true => exact hkept
    | false =>
      have hbooks₁ : ∀ p ∈ i.books,
          (disk s₁).destination p ≠ (disk s₁).destination i.target := fun p hp => by
        rw [hprepare.1.destination, hprepare.1.destination]
        exact hsep.books p hp
      have hfresh₁ : Fresh i.target s₁ :=
        hfresh.of_leads (List.Subset.trans hps (List.cons_subset_cons _ (List.nil_subset _)))
          hprepare
      have hfinish := read_target_of_replaceFile (hprepare.1.fileNumber hn) hbooks₁
        hfresh₁ bundle.encode
      simp only [Bool.false_eq_true, ↓reduceIte]
      rw [outcome_bind]
      split at hfinish
      · next f s₂ heq₂ =>
        have hsame := hprepare.1.contents n ⟨_, (fileNumber_eq_ok.1 hn).2⟩ hapart
        dsimp only at hsame
        rw [hsame] at hfinish
        rw [heq₂]
        exact hfinish
      · next s₂ heq₂ =>
        rw [heq₂]
        exact (congrArg (fun s => (disk s).read i.target) (outcome_bind_pure _ _ _)).trans
          (hfinish _ (within_keepBooks i c report s₂))

omit [HasDisk σ] [Faithful σ] in
/-- A cycle that has replaced the bundle and fails nevertheless has failed in its books. -/
lemma fails_in_books {f : Failure} (hfail : outcome (i.apply c dryRun) s = (.error f, s'))
    {new : List UInt8} (hnew : i.replacement? c dryRun s = some new) :
    ∃ (r : Cycle.Report) (s₁ : σ), outcome (i.keepBooks c r) s₁ = (.error f, s') := by
  rw [apply_eq, outcome_bind] at hfail
  rw [replacement?] at hnew
  rcases heq : outcome (i.prepare c dryRun) s with ⟨f' | ⟨bundle, report⟩, s₁⟩
  · rw [heq] at hnew
    cases hnew
  · rw [heq] at hnew hfail
    cases dryRun with
    | true => cases hnew
    | false =>
      simp only [Bool.false_eq_true, ↓reduceIte] at hnew hfail
      rw [outcome_bind] at hfail
      rcases heq₂ : outcome (replaceFile i.target bundle.encode) s₁ with ⟨f' | u, s₂⟩
      · rw [heq₂] at hnew
        cases hnew
      · rw [heq₂] at hfail
        refine ⟨report, s₂, ?_⟩
        dsimp only at hfail
        rw [outcome_bind] at hfail
        rcases heq₃ : outcome (i.keepBooks c report) s₂ with ⟨f' | u', s₃⟩
        · rw [heq₃] at hfail
          cases hfail
          rfl
        · rw [heq₃] at hfail
          cases hfail

end Retouch.Installation
