import Retouch.Proofs.Installation.Atomic

/-! The backup of a bundle. A step of the tool reads the bytes of the bundle and of the backup, and
leaves other ones; nothing else on the disk counts for what becomes of the two. -/
namespace Retouch.Installation

open HasDisk Disk Retouch.Task

/-- The bundle names no release, or the one that the backup names. -/
def SameRelease (backup current : List UInt8) : Prop :=
  releaseOf current = none ∨ releaseOf current = releaseOf backup

instance (backup current : List UInt8) : Decidable (SameRelease backup current) :=
  inferInstanceAs (Decidable (_ ∨ _))

lemma refreshes_iff (backup current : List UInt8) :
    ((releaseOf current).isSome && decide (releaseOf current ≠ releaseOf backup)) = true ↔
      ¬SameRelease backup current := by
  rw [SameRelease]
  cases releaseOf current <;> simp

/-- What a cycle makes of the bytes of a backup. -/
def retouch? (c : Cycle) (bytes : List UInt8) : Option (List UInt8) := do
  let bundle ← (Bundle.decode bytes).toOption
  let (done, _) ← (c.run bundle.text).toOption
  return Bundle.encode { bundle with text := done.text }

/-- What a cycle reports on the bytes of a backup. -/
def reportOn? (c : Cycle) (bytes : List UInt8) : Option Cycle.Report := do
  let bundle ← (Bundle.decode bytes).toOption
  let (_, report) ← (c.run bundle.text).toOption
  return report

lemma run_of_reportOn? {c : Cycle} {bytes : List UInt8} {r : Cycle.Report}
    (h : reportOn? c bytes = some r) :
    ∃ b done, Bundle.decode bytes = .ok b ∧ c.run b.text = .ok (done, r) := by
  cases hb : Bundle.decode bytes with
  | error e => simp [reportOn?, hb, Except.toOption] at h
  | ok b =>
    cases hrun : c.run b.text with
    | error f => simp [reportOn?, hb, hrun, Except.toOption] at h
    | ok result =>
      obtain ⟨done, report⟩ := result
      obtain rfl : report = r := by simpa [reportOn?, hb, hrun, Except.toOption] using h
      exact ⟨b, done, rfl, hrun⟩

structure Copies where
  backup : List UInt8
  current : List UInt8
  deriving DecidableEq

variable {σ : Type} [HasDisk σ] {s s₁ s' : σ} {i : Installation} {k : Copies}
  {pristine current new : List UInt8}

/-- There is no backup of the bundle yet. -/
structure Unbacked (i : Installation) (pristine : List UInt8) (s : σ) : Prop where
  target : (disk s).read i.target = .ok pristine
  backup : ∀ n, ¬(disk s).Points i.backup n
  books : ∀ p ∈ i.books, (disk s).destination p ≠ (disk s).destination i.target
  fresh : Fresh i.target s

/-- The bundle and its backup hold some bytes, and nothing else leads to the file of the backup. -/
structure Backed (i : Installation) (k : Copies) (s : σ) : Prop where
  target : (disk s).read i.target = .ok k.current
  backup : ∃ m, (disk s).fileNumber i.backup = .ok m ∧ ((disk s).file m).bytes = k.backup ∧
    ∀ p ∈ i.target :: i.books, ¬(disk s).Points p m
  books : ∀ p ∈ i.books, (disk s).destination p ≠ (disk s).destination i.target
  fresh : Fresh i.target s

lemma Backed.read_backup (h : Backed i k s) : (disk s).read i.backup = .ok k.backup := by
  obtain ⟨m, hm, hbytes, -⟩ := h.backup
  exact read_eq_ok.2 ⟨m, hm, hbytes⟩

lemma destination_ne_backup {p : Path} (hp : p ∈ i.books) (d : Disk) :
    d.destination p ≠ d.destination i.backup := by
  have hbackup : IsName "cli.js.backup" := ⟨by decide, rfl, rfl⟩
  simp only [books, List.mem_cons, List.not_mem_nil, or_false] at hp
  rcases hp with rfl | rfl | rfl
  · exact d.destination_join_ne _ _ ⟨by decide, rfl, rfl⟩ hbackup (by decide)
  · exact d.destination_join_ne _ _ ⟨by decide, rfl, rfl⟩ hbackup (by decide)
  · exact d.destination_join_ne _ _ ⟨by decide, rfl, rfl⟩ hbackup (by decide)

lemma books_of_leads {ps : List Path} (hl : Leads ps s s')
    (h : ∀ p ∈ i.books, (disk s).destination p ≠ (disk s).destination i.target) :
    ∀ p ∈ i.books, (disk s').destination p ≠ (disk s').destination i.target := by
  intro p hp
  rw [hl.1.destination, hl.1.destination]
  exact h p hp

lemma read_of_leads {p : Path} {bytes : List UInt8} (hl : Leads [] s s')
    (h : (disk s).read p = .ok bytes) : (disk s').read p = .ok bytes := by
  obtain ⟨n, hn, rfl⟩ := read_eq_ok.1 h
  exact hl.1.read hn fun q hq => absurd hq List.not_mem_nil

lemma Unbacked.of_leads (h : Unbacked i pristine s) (hl : Leads [] s s') :
    Unbacked i pristine s' where
  target := read_of_leads hl h.target
  backup n hn := by
    rw [Points, hl.1.destination] at hn
    rcases hl.1.fresh _ _ hn with hold | ⟨⟨p, hp, -⟩, -⟩
    · exact h.backup n hold
    · exact List.not_mem_nil hp
  books := books_of_leads hl h.books
  fresh := h.fresh.of_leads (i := i) (List.nil_subset _) hl

lemma Backed.of_leads (h : Backed i k s) (hl : Leads [] s s') : Backed i k s' where
  target := read_of_leads hl h.target
  backup := by
    obtain ⟨m, hm, hbytes, hapart⟩ := h.backup
    have hnamed : (disk s).Named m := ⟨_, (fileNumber_eq_ok.1 hm).2⟩
    refine ⟨m, hl.1.fileNumber hm, ?_, fun p hp => hl.1.apart hnamed (hapart p hp)⟩
    rw [hl.1.contents m hnamed fun q hq => absurd hq List.not_mem_nil, hbytes]
  books := books_of_leads hl h.books
  fresh := h.fresh.of_leads (i := i) (List.nil_subset _) hl

lemma Unbacked.kind? (h : Unbacked i pristine s) : (disk s).kind? i.backup ≠ some .file := by
  intro hfile
  obtain ⟨n, hn⟩ := kind?_eq_file.1 hfile
  exact h.backup n (fileNumber_eq_ok.1 hn).2

/-- Copying the bundle makes a backup of its bytes, whether or not there was one before. -/
lemma backed_of_copy (htarget : (disk s).read i.target = .ok current)
    (hapart : ∀ m, (disk s).Points i.backup m → ∀ p ∈ i.target :: i.books, ¬(disk s).Points p m)
    (hbooks : ∀ p ∈ i.books, (disk s).destination p ≠ (disk s).destination i.target)
    (hfresh : Fresh i.target s) (hcopy : (disk s).copy i.target i.backup = .ok (disk s'))
    (hticks : ticks s ≤ ticks s') : Backed i ⟨current, current⟩ s' := by
  obtain ⟨n, hn, hstored⟩ := copy_eq_ok hcopy
  have hpoints := (fileNumber_eq_ok.1 hn).2
  have hl : Leads [i.backup] s s' := ⟨hstored.touches, hticks⟩
  obtain ⟨n', hn', rfl⟩ := read_eq_ok.1 htarget
  obtain rfl : n = n' := Except.ok.inj (hn.symm.trans hn')
  -- the file of the backup is not the bundle, and has no name but the backup's
  have hother : ∀ p ∈ i.target :: i.books,
      ¬(disk s).Points p ((disk s).numberAt ((disk s).destination i.backup)) := by
    rcases hstored.numberAt with hold | ⟨-, hnew⟩
    · exact hapart _ hold
    · exact fun p _ hp => hnew ⟨_, hp⟩
  have hne : (disk s).numberAt ((disk s).destination i.backup) ≠ n := by
    rintro heq
    exact hother i.target List.mem_cons_self (heq ▸ hpoints)
  rw [if_neg hne] at hstored
  refine ⟨?_, ⟨_, hstored.fileNumber, ?_, fun p hp => ?_⟩, books_of_leads hl hbooks,
    hfresh.of_leads (List.cons_subset_cons _ (List.nil_subset _)) hl⟩
  · refine hl.1.read hn fun q hq => ?_
    obtain rfl := List.mem_singleton.1 hq
    exact fun hq' => hapart n hq' i.target List.mem_cons_self hpoints
  · rw [hstored.file, if_pos rfl]
  · rw [hstored.points_of_ne]
    · exact hother p hp
    · rcases List.mem_cons.1 hp with rfl | hp
      · exact fun heq => hapart n (hpoints.of_destination heq) i.target List.mem_cons_self hpoints
      · exact destination_ne_backup hp _

lemma Backed.destination_ne (h : Backed i k s) :
    (disk s).destination i.backup ≠ (disk s).destination i.target := by
  obtain ⟨m, hm, -, hapart⟩ := h.backup
  intro heq
  exact hapart i.target List.mem_cons_self ((fileNumber_eq_ok.1 hm).2.of_destination heq)

/-- A new file in the place of the bundle leaves the backup as it is. -/
lemma Backed.of_replaced (h : Backed i k s) {mode : Mode}
    (hreplaced : (disk s).Replaced i.target ⟨new, mode⟩ (disk s₁)) (hticks : ticks s ≤ ticks s₁) :
    Backed i { k with current := new } s₁ := by
  obtain ⟨m, hm, hbytes, hapart⟩ := h.backup
  have hnamed : (disk s).Named m := ⟨_, (fileNumber_eq_ok.1 hm).2⟩
  obtain ⟨r, -, -, -, hsame⟩ := hreplaced.file
  refine ⟨hreplaced.read, ⟨m, hreplaced.fileNumber h.destination_ne hm, ?_, fun p hp => ?_⟩,
    fun p hp => ?_, fun t ht n hn => ?_⟩
  · rw [hsame m hnamed, hbytes]
  · rcases List.mem_cons.1 hp with rfl | hp'
    · have hbackup := (hreplaced.points_of_ne h.destination_ne).2 (fileNumber_eq_ok.1 hm).2
      exact fun hp' => hreplaced.apart hp' h.destination_ne hbackup
    · rw [hreplaced.points_of_ne (h.books p hp')]
      exact hapart p hp
  · rw [hreplaced.destination, hreplaced.destination]
    exact h.books p hp
  · -- the bundle is a file, so its place is not that of a fresh name
    have hfresh := h.fresh t (Nat.le_trans hticks ht)
    have hne : (disk s).destination (freshPath i.target t) ≠ (disk s).destination i.target := by
      obtain ⟨n', htarget, -⟩ := read_eq_ok.1 h.target
      intro heq
      exact hfresh n' ((fileNumber_eq_ok.1 htarget).2.of_destination heq.symm)
    exact hfresh n ((hreplaced.points_of_ne hne).1 hn)

/-- Keeping the books touches neither the bundle nor the backup. -/
lemma Backed.of_books (h : Backed i k s)
    (hapart : ∀ n, (disk s).fileNumber i.target = .ok n → ∀ p ∈ i.books, ¬(disk s).Points p n)
    (hl : Leads i.books s s') : Backed i k s' := by
  obtain ⟨m, hm, hbytes, hapart'⟩ := h.backup
  have hnamed : (disk s).Named m := ⟨_, (fileNumber_eq_ok.1 hm).2⟩
  refine ⟨?_, ⟨m, hl.1.fileNumber hm, ?_, fun p hp => hl.1.apart hnamed (hapart' p hp)⟩,
    books_of_leads hl h.books, h.fresh.of_leads (List.subset_cons_self _ _) hl⟩
  · obtain ⟨n, hn, hread⟩ := read_eq_ok.1 h.target
    rw [hl.1.read hn (hapart n hn), hread]
  · rw [hl.1.contents m hnamed fun p hp => hapart' p (List.mem_cons_of_mem _ hp), hbytes]

variable [Host (StateM σ)] [Faithful σ]

/-- What a step puts in the place of the bundle is there after the books have been kept. -/
lemma Backed.of_replaceFile (h : Backed i k s)
    (hreplace : outcome (replaceFile i.target new) s = (.ok (), s₁)) (hl : Leads i.books s₁ s') :
    Backed i { k with current := new } s' := by
  have hcases := replaceFile_cases h.fresh.vacant new
  rw [hreplace] at hcases
  obtain ⟨hreplaced, hticks⟩ := hcases
  refine (h.of_replaced hreplaced (Nat.le_of_lt hticks)).of_books (fun n hn p hp => ?_) hl
  exact hreplaced.apart (fileNumber_eq_ok.1 hn).2 (h.books p hp)

lemma copyWithFolder_eq_ok {source target : Path}
    (h : outcome (copyWithFolder source target) s = (.ok (), s')) :
    ∃ s₁, Leads [] s s₁ ∧ (disk s₁).copy source target = .ok (disk s') ∧ ticks s' = ticks s₁ := by
  obtain ⟨u, s₁, hfolder, hcopy⟩ := bind_eq_ok.1 h
  exact ⟨s₁, (within_createFolderOf target).leads hfolder,
    request_eq_ok (Faithful.copy source target) hcopy⟩

/-- Seeing to the backup is copying the bundle, if there is no backup or one of another release, and
else nothing but reading. -/
lemma keepBackup_cases (h : outcome i.keepBackup s = (.ok (), s')) :
    (disk s).kind? i.backup ≠ some .file ∧
        outcome (copyWithFolder i.target i.backup) s = (.ok (), s') ∨
      ∃ current pristine s₁, (disk s).kind? i.backup = some .file ∧
        (disk s).read i.target = .ok current ∧ (disk s).read i.backup = .ok pristine ∧
        disk s₁ = disk s ∧ Leads [] s s₁ ∧
        (SameRelease pristine current ∧ s' = s₁ ∨ ¬SameRelease pristine current ∧
          outcome (copyWithFolder i.target i.backup) s₁ = (.ok (), s')) := by
  rw [Installation.keepBackup, outcome_bind, outcome_isFile] at h
  by_cases hfile : (disk s).kind? i.backup = some .file
  · rw [decide_eq_true hfile] at h
    obtain ⟨current, s₁, hcurrent, h⟩ := bind_eq_ok.1 h
    obtain ⟨pristine, s₂, hpristine, h⟩ := bind_eq_ok.1 h
    obtain ⟨hcurrent, hdisk₁, hl₁⟩ := Task.read_eq_ok _ _ hcurrent
    obtain ⟨hpristine, hdisk₂, hl₂⟩ := Task.read_eq_ok _ _ hpristine
    rw [hdisk₁] at hpristine hdisk₂
    refine .inr ⟨current, pristine, s₂, hfile, hcurrent, hpristine, hdisk₂, hl₁.trans hl₂, ?_⟩
    by_cases hsame : SameRelease pristine current
    · rw [if_neg fun hne => (refreshes_iff _ _).1 hne hsame] at h
      cases h
      exact .inl ⟨hsame, rfl⟩
    · rw [if_pos ((refreshes_iff _ _).2 hsame)] at h
      exact .inr ⟨hsame, h⟩
  · rw [decide_eq_false hfile] at h
    exact .inl ⟨hfile, h⟩

/-- Without a backup, one is made of the bundle as it is. -/
theorem Unbacked.keepBackup (h : Unbacked i pristine s)
    (hkeep : outcome i.keepBackup s = (.ok (), s')) : Backed i ⟨pristine, pristine⟩ s' := by
  rcases keepBackup_cases hkeep with ⟨-, hcopy⟩ | ⟨current, bytes, s₁, hfile, -⟩
  · obtain ⟨s₁, hl, hcopy, hticks⟩ := copyWithFolder_eq_ok hcopy
    have h₁ := h.of_leads hl
    exact backed_of_copy h₁.target (fun m hm => absurd hm (h₁.backup m)) h₁.books h₁.fresh hcopy
      (Nat.le_of_eq hticks.symm)
  · exact absurd hfile h.kind?

/-- A backup stays while the bundle names no other release, and else it is replaced. -/
theorem Backed.keepBackup (h : Backed i k s) (hkeep : outcome i.keepBackup s = (.ok (), s')) :
    Backed i { k with backup := if SameRelease k.backup k.current then k.backup else k.current }
      s' := by
  rcases keepBackup_cases hkeep with
    ⟨hfile, -⟩ | ⟨current, pristine, s₁, -, hcurrent, hpristine, -, hl, hcases⟩
  · obtain ⟨m, hm, -⟩ := h.backup
    exact absurd (kind?_eq_file.2 ⟨m, hm⟩) hfile
  · obtain rfl : current = k.current := Except.ok.inj (hcurrent.symm.trans h.target)
    obtain rfl : pristine = k.backup := Except.ok.inj (hpristine.symm.trans h.read_backup)
    have h₁ := h.of_leads hl
    rcases hcases with ⟨hsame, rfl⟩ | ⟨hother, hcopy⟩
    · rw [if_pos hsame]
      exact h₁
    · obtain ⟨s₂, hl₂, hcopy, hticks⟩ := copyWithFolder_eq_ok hcopy
      have h₂ := h₁.of_leads hl₂
      obtain ⟨m, hm, -, hapart⟩ := h₂.backup
      rw [if_neg hother]
      refine backed_of_copy h₂.target (fun n hn => ?_) h₂.books h₂.fresh hcopy
        (Nat.le_of_eq hticks.symm)
      rwa [hn.eq (fileNumber_eq_ok.1 hm).2]

end Retouch.Installation
