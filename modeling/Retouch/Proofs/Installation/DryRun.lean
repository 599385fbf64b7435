import Retouch.Proofs.Installation.Marked
import Retouch.Proofs.Installation.Runs

/-! What a dry run tells about the cycle that writes. A dry run takes a backup as it is, and without one
the bundle; the cycle that writes sees to the backup first. So the two work on the same bytes, unless
seeing to the backup changes what it holds. -/
namespace Retouch.Installation

open HasDisk Disk Retouch.Task

/-- The backup is of another release than the bundle, so a cycle that writes makes a new one. -/
def Stale (i : Installation) (d : Disk) (old new : List UInt8) : Prop :=
  d.read i.backup = .ok old ∧ d.read i.target = .ok new ∧ ¬SameRelease old new

/-- The backup is to come under a name of the bundle itself, to which the way is still to be made. The
copy of a file over itself is empty. -/
def Looped (i : Installation) (d : Disk) (old new : List UInt8) : Prop :=
  d.kind? i.backup ≠ some .file ∧ d.read i.target = .ok old ∧ new = [] ∧
    ∃ n, d.fileNumber i.target = .ok n ∧ d.Points i.backup n

/-- A dry run works on old bytes, where a cycle that writes works on new ones. -/
def Strays (i : Installation) (d : Disk) (old new : List UInt8) : Prop :=
  Stale i d old new ∨ Looped i d old new

variable {σ : Type} [HasDisk σ] {s s₁ s₂ : σ} {i : Installation} {c : Cycle}
  {r r' : Cycle.Report} {d : Disk} {old new old' new' bytes : List UInt8}

lemma Stale.kind? (h : Stale i d old new) : d.kind? i.backup = some .file := by
  obtain ⟨n, hn, -⟩ := read_eq_ok.1 h.1
  exact kind?_eq_file.2 ⟨n, hn⟩

lemma Strays.unique (h : Strays i d old new) (h' : Strays i d old' new') :
    old = old' ∧ new = new' := by
  rcases h with h | h <;> rcases h' with h' | h'
  · exact ⟨Except.ok.inj (h.1.symm.trans h'.1), Except.ok.inj (h.2.1.symm.trans h'.2.1)⟩
  · exact absurd h.kind? h'.1
  · exact absurd h'.kind? h.1
  · exact ⟨Except.ok.inj (h.2.1.symm.trans h'.2.1), h.2.2.1.trans h'.2.2.1.symm⟩

lemma release_of_reportOn? {b : Bundle} (hb : Bundle.decode bytes = .ok b)
    (h : reportOn? c bytes = some r) : r.release = Release.ofBanner? b.text := by
  obtain ⟨b', done, hb', hrun⟩ := run_of_reportOn? h
  obtain rfl : b = b' := Except.ok.inj (hb.symm.trans hb')
  obtain ⟨first, -, hrun⟩ := Attempt.bind_eq_ok.1 hrun
  obtain ⟨last, -, hrun⟩ := Attempt.bind_eq_ok.1 hrun
  cases hrun
  rfl

variable [Host (StateM σ)] [Faithful σ]

/-- What a cycle reports, it reports on the bytes that its source holds. -/
lemma reportOn?_of_apply {dryRun : Bool} (h : outcome (i.apply c dryRun) s = (.ok r, s₁)) :
    ∃ source s₀ bytes, outcome (i.source dryRun) s = (.ok source, s₀) ∧
      (disk s₀).read source = .ok bytes ∧ reportOn? c bytes = some r := by
  rw [apply_eq] at h
  obtain ⟨⟨bundle, report⟩, s₂, hprepare, h⟩ := bind_eq_ok.1 h
  obtain ⟨source, s₀, bytes, hsource, hread, -, hreport, -⟩ := prepare_eq_ok hprepare
  refine ⟨source, s₀, bytes, hsource, hread, ?_⟩
  rw [hreport]
  cases dryRun with
  | true =>
    cases h
    rfl
  | false =>
    obtain ⟨u, s₃, -, h⟩ := bind_eq_ok.1 h
    obtain ⟨u', s₄, -, h⟩ := bind_eq_ok.1 h
    cases h
    rfl

lemma source_of_dryRun {source : Path} (h : outcome (i.source true) s = (.ok source, s₁)) :
    disk s₁ = disk s ∧
      source = if (disk s).kind? i.backup = some .file then i.backup else i.target := by
  rw [Installation.source, if_pos rfl, outcome_bind, outcome_isFile] at h
  cases h
  refine ⟨rfl, ?_⟩
  by_cases hfile : (disk s).kind? i.backup = some .file
  · rw [if_pos hfile, if_pos (decide_eq_true hfile)]
  · rw [if_neg hfile, if_neg (by simpa using hfile)]

/-- A copy holds the bytes that were copied, unless a file has been copied over itself. -/
lemma read_of_copyWithFolder {source target : Path} {n : Nat}
    (hn : (disk s).fileNumber source = .ok n)
    (h : outcome (copyWithFolder source target) s = (.ok (), s₁)) :
    ((disk s).Points target n ∧ (disk s₁).read target = .ok []) ∨
      (¬(disk s).Points target n ∧ (disk s₁).read target = .ok ((disk s).file n).bytes) := by
  obtain ⟨s₀, hl, hcopy, -⟩ := copyWithFolder_eq_ok h
  obtain ⟨n', hn', hstored⟩ := copy_eq_ok hcopy
  obtain rfl : n = n' := Except.ok.inj ((hl.1.fileNumber hn).symm.trans hn')
  have hnamed : (disk s₀).Named n := ⟨_, (fileNumber_eq_ok.1 hn').2⟩
  by_cases hpoints : (disk s).Points target n
  · have hnumber : (disk s₀).numberAt ((disk s₀).destination target) = n :=
      numberAt_of_file (hl.1.points hpoints)
    refine .inl ⟨hpoints, ?_⟩
    rw [hstored.read, if_pos hnumber]
  · have hnumber : (disk s₀).numberAt ((disk s₀).destination target) ≠ n := by
      rintro rfl
      rcases hstored.numberAt with hold | ⟨-, hnew⟩
      · exact hl.1.apart ⟨_, (fileNumber_eq_ok.1 hn).2⟩ hpoints hold
      · exact hnew hnamed
    refine .inr ⟨hpoints, ?_⟩
    rw [hstored.read, if_neg hnumber,
      hl.1.contents n ⟨_, (fileNumber_eq_ok.1 hn).2⟩ fun p hp => absurd hp List.not_mem_nil]

/-- Seeing to a backup that is there changes what it holds exactly if it is stale. -/
lemma read_of_keepBackup (hold : (disk s).read i.backup = .ok old)
    (hkeep : outcome i.keepBackup s = (.ok (), s₁)) (hnew : (disk s₁).read i.backup = .ok new) :
    (old = new ∧ ∀ current, (disk s).read i.target = .ok current → SameRelease old current) ∨
      Stale i (disk s) old new := by
  obtain ⟨m, hm, hbacked⟩ := read_eq_ok.1 hold
  rcases keepBackup_cases hkeep with
    ⟨hfile, -⟩ | ⟨current, pristine, s₂, -, hcurrent, hpristine, hdisk, -, hcases⟩
  · exact absurd (kind?_eq_file.2 ⟨m, hm⟩) hfile
  · obtain rfl : old = pristine := Except.ok.inj (hold.symm.trans hpristine)
    rcases hcases with ⟨hsame, rfl⟩ | ⟨hother, hcopy⟩
    · rw [hdisk] at hnew
      refine .inl ⟨Except.ok.inj (hold.symm.trans hnew), fun current' hcurrent' => ?_⟩
      obtain rfl : current = current' := Except.ok.inj (hcurrent.symm.trans hcurrent')
      exact hsame
    · obtain ⟨n, hn, hbytes⟩ := read_eq_ok.1 hcurrent
      rw [← hdisk] at hn
      rcases read_of_copyWithFolder hn hcopy with ⟨hpoints, -⟩ | ⟨-, hcopied⟩
      · -- a backup that is the bundle itself is not stale
        rw [hdisk] at hpoints
        obtain rfl : m = n := (fileNumber_eq_ok.1 hm).2.eq hpoints
        obtain rfl : old = current := hbacked.symm.trans hbytes
        exact absurd (.inr rfl) hother
      · rw [hcopied, hdisk, hbytes] at hnew
        obtain rfl : current = new := Except.ok.inj hnew
        exact .inr ⟨hold, hcurrent, hother⟩

/-- Where there is no backup, the new one holds the bytes of the bundle, or it loops. -/
lemma read_of_keepBackup_new (hfile : (disk s).kind? i.backup ≠ some .file)
    (hold : (disk s).read i.target = .ok old) (hkeep : outcome i.keepBackup s = (.ok (), s₁))
    (hnew : (disk s₁).read i.backup = .ok new) :
    (old = new ∧ ∀ new', ¬Looped i (disk s) old new') ∨ Looped i (disk s) old new := by
  have hcopy := ((keepBackup_cases hkeep).resolve_right fun ⟨_, _, _, h, _⟩ => hfile h).2
  obtain ⟨n, hn, hbytes⟩ := read_eq_ok.1 hold
  rcases read_of_copyWithFolder hn hcopy with ⟨hpoints, hcopied⟩ | ⟨hpoints, hcopied⟩
  · obtain rfl : [] = new := Except.ok.inj (hcopied.symm.trans hnew)
    exact .inr ⟨hfile, hold, rfl, n, hn, hpoints⟩
  · rw [hcopied, hbytes] at hnew
    refine .inl ⟨Except.ok.inj hnew, ?_⟩
    rintro new' ⟨-, -, -, n', hn', hpoints'⟩
    obtain rfl : n = n' := Except.ok.inj (hn.symm.trans hn')
    exact hpoints hpoints'

/-- The bytes of a dry run and of the cycle that writes are the same ones, unless they stray. -/
lemma start_cases {source : Path} (hdry : outcome (i.source true) s = (.ok source, s₁))
    (hold : (disk s₁).read source = .ok old) (hkeep : outcome i.keepBackup s = (.ok (), s₂))
    (hnew : (disk s₂).read i.backup = .ok new) :
    (old = new ∧ ∀ old' new', ¬Strays i (disk s) old' new') ∨ Strays i (disk s) old new := by
  obtain ⟨hdisk, rfl⟩ := source_of_dryRun hdry
  rw [hdisk] at hold
  by_cases hfile : (disk s).kind? i.backup = some .file
  · rw [if_pos hfile] at hold
    rcases read_of_keepBackup hold hkeep hnew with ⟨rfl, hsame⟩ | hstale
    · refine .inl ⟨rfl, ?_⟩
      rintro old' new' (⟨hold', hnew', hother⟩ | hlooped)
      · obtain rfl : old = old' := Except.ok.inj (hold.symm.trans hold')
        exact hother (hsame new' hnew')
      · exact hlooped.1 hfile
    · exact .inr (.inl hstale)
  · rw [if_neg hfile] at hold
    rcases read_of_keepBackup_new hfile hold hkeep hnew with ⟨rfl, hstraight⟩ | hlooped
    · refine .inl ⟨rfl, ?_⟩
      rintro old' new' (hstale | hlooped)
      · exact hfile hstale.kind?
      · obtain rfl : old = old' := Except.ok.inj (hold.symm.trans hlooped.2.1)
        exact hstraight new' hlooped
    · exact .inr (.inr hlooped)

lemma report_cases (hdry : outcome (i.apply c true) s = (.ok r, s₁))
    (hwrite : outcome (i.apply c false) s = (.ok r', s₂)) :
    ∃ old new, reportOn? c old = some r ∧ reportOn? c new = some r' ∧
      ((old = new ∧ ∀ old' new', ¬Strays i (disk s) old' new') ∨ Strays i (disk s) old new) := by
  obtain ⟨source, s₃, old, hsource, hold, hr⟩ := reportOn?_of_apply hdry
  obtain ⟨source', s₄, new, hsource', hnew, hr'⟩ := reportOn?_of_apply hwrite
  obtain ⟨hkeep, rfl⟩ := source_eq_ok hsource'
  exact ⟨old, new, hr, hr', start_cases hsource hold hkeep hnew⟩

/-- A dry run tells what the cycle that writes will report, unless that one works on other bytes and
reports something else about them. -/
theorem report_eq_iff (hdry : outcome (i.apply c true) s = (.ok r, s₁))
    (hwrite : outcome (i.apply c false) s = (.ok r', s₂)) :
    r = r' ↔ ∀ old new, Strays i (disk s) old new → reportOn? c old = reportOn? c new := by
  obtain ⟨old, new, hr, hr', ⟨rfl, hnone⟩ | hstrays⟩ := report_cases hdry hwrite
  · rw [hr, Option.some.injEq] at hr'
    exact ⟨fun _ old' new' h => absurd h (hnone old' new'), fun _ => hr'⟩
  · constructor
    · rintro rfl old' new' h
      obtain ⟨rfl, rfl⟩ := h.unique hstrays
      exact hr.trans hr'.symm
    · intro h
      have hsame := h old new hstrays
      rwa [hr, hr', Option.some.injEq] at hsame

/-- A bundle that has been updated since its backup was made. -/
def updated : Machine := .ofDisk
  ⟨.ofList [(["w"], .folder 0o755), (["w", "cli.js"], .file 0), (["w", "st"], .folder 0o755),
      (["w", "st", "cli.js.backup"], .file 1)],
    .ofList [(0, ⟨"// Version: 2.0.0".toUTF8.toList, 0o644⟩),
      (1, ⟨"// Version: 1.0.0".toUTF8.toList, 0o644⟩)], ["w"]⟩

/-- The dry run reports on the release before. -/
theorem report_ne_updated :
    let i : Installation := ⟨"cli.js", "st"⟩
    let c : Cycle := ⟨.default, [], ⟨false, false⟩⟩
    ∃ r r' s₁ s₂, outcome (i.apply c true) updated = (.ok r, s₁) ∧
      outcome (i.apply c false) updated = (.ok r', s₂) ∧ r ≠ r' := by
  intro i c
  have hrun : ∀ dryRun, (outcome (i.apply c dryRun) updated).1.isOk = true := by decide +kernel
  have hok (dryRun : Bool) : ∃ r s', outcome (i.apply c dryRun) updated = (.ok r, s') := by
    have h := hrun dryRun
    rcases hresult : outcome (i.apply c dryRun) updated with ⟨f | r, s'⟩
    · rw [hresult] at h
      cases h
    · exact ⟨r, s', rfl⟩
  obtain ⟨r, s₁, hdry⟩ := hok true
  obtain ⟨r', s₂, hwrite⟩ := hok false
  refine ⟨r, r', s₁, s₂, hdry, hwrite, fun heq => ?_⟩
  have hstale : Stale i (disk updated) "// Version: 1.0.0".toUTF8.toList
      "// Version: 2.0.0".toUTF8.toList := ⟨by decide +kernel, by decide +kernel, by decide +kernel⟩
  have hsame := (report_eq_iff hdry hwrite).1 heq _ _ (.inl hstale)
  exact absurd hsame (by decide +kernel)

/-- Where no mark hides a banner, a stale backup always shows: the releases that are reported differ. -/
theorem release_ne_of_stale {b b' : Bundle} (hstale : Stale i (disk s) old new)
    (hb : Bundle.decode old = .ok b) (hb' : Bundle.decode new = .ok b') (hmarked : b.marked = false)
    (hmarked' : b'.marked = false) (hdry : outcome (i.apply c true) s = (.ok r, s₁))
    (hwrite : outcome (i.apply c false) s = (.ok r', s₂)) : r.release ≠ r'.release := by
  have hstrays : Strays i (disk s) old new := .inl hstale
  obtain ⟨old', new', hr, hr', ⟨rfl, hnone⟩ | hstrays'⟩ := report_cases hdry hwrite
  · exact absurd hstrays (hnone old new)
  · obtain ⟨rfl, rfl⟩ := hstrays.unique hstrays'
    have hold := releaseOf_eq hb
    have hnew := releaseOf_eq hb'
    rw [hmarked, if_neg Bool.false_ne_true] at hold
    rw [hmarked', if_neg Bool.false_ne_true] at hnew
    rw [release_of_reportOn? hb hr, release_of_reportOn? hb' hr', ← hold, ← hnew]
    exact fun heq => hstale.2.2 (.inr heq.symm)

end Retouch.Installation
