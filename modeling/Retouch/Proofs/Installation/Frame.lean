import Retouch.Proofs.Installation.Runs

/-! What a run leaves alone. The backup and the books are written in place, so what is written shows under
all of their names; the bundle is replaced by a new file, so its other names keep the old one. Nothing else
on the disk changes, and of the fresh files that are made none is left. -/
namespace Retouch.Installation

open HasDisk Disk Retouch.Task

/-- The places of the files that an installation writes. -/
def places (i : Installation) (d : Disk) : List Disk.Place :=
  (i.target :: i.backup :: i.books).map d.destination

/-- No file that is written in place is the one with a number. -/
def Unlinked (i : Installation) (d : Disk) (n : Nat) : Prop :=
  ∀ p ∈ i.backup :: i.books, ¬d.Points p n

/-- All that is not an installation's own is on the second disk as it is on the first. -/
structure Spares (i : Installation) (d d' : Disk) : Prop where
  base : d'.base = d.base
  /-- Folders stay, with their permissions. -/
  folders : ∀ q mode, d.entry? q = some (.folder mode) → d'.entry? q = some (.folder mode)
  /-- Names lead to the same files, except for the name of the bundle. -/
  links : ∀ q ≠ d.destination i.target, ∀ n,
    d.entry? q = some (.file n) → d'.entry? q = some (.file n)
  /-- These files keep their bytes and permissions, and so does the old file of the bundle under its
  other names. -/
  files : ∀ q ≠ d.destination i.target, ∀ n, d.entry? q = some (.file n) → i.Unlinked d n →
    d'.file n = d.file n ∧ i.Unlinked d' n
  /-- The bundle keeps its permissions. -/
  mode : ∀ n, d.Points i.target n →
    ∃ n', d'.Points i.target n' ∧ (d'.file n').mode = (d.file n).mode
  /-- No file has come under a name that is not the installation's own. -/
  names : ∀ q ∉ i.places d, ∀ n, d'.entry? q = some (.file n) → d.entry? q = some (.file n)

variable {i : Installation} {d d₁ d' : Disk} {ps : List Path} {p : Path} {n : Nat}

lemma places_congr (h : d'.base = d.base) : i.places d' = i.places d :=
  List.map_congr_left fun p _ => destination_congr h p

lemma destination_ne_target (h : (i.places d).Nodup) (hp : p ∈ i.backup :: i.books) :
    d.destination p ≠ d.destination i.target := by
  rw [places, List.map_cons, List.nodup_cons] at h
  exact fun heq => h.1 (heq ▸ List.mem_map_of_mem hp)

namespace Spares

lemma refl (i : Installation) (d : Disk) : i.Spares d d where
  base := rfl
  folders _ _ hq := hq
  links _ _ _ hq := hq
  files _ _ _ _ hn := ⟨rfl, hn⟩
  mode n hn := ⟨n, hn, rfl⟩
  names _ _ _ hq := hq

lemma trans (h₁ : i.Spares d d₁) (h₂ : i.Spares d₁ d') : i.Spares d d' := by
  have hplace : d₁.destination i.target = d.destination i.target := destination_congr h₁.base _
  have hplaces : i.places d₁ = i.places d := places_congr h₁.base
  refine ⟨h₂.base.trans h₁.base, fun q mode hq => h₂.folders q mode (h₁.folders q mode hq),
    fun q hq n hn => ?_, fun q hq n hn hlinks => ?_, fun n hn => ?_, fun q hq n hn => ?_⟩
  · exact h₂.links q (hplace ▸ hq) n (h₁.links q hq n hn)
  · obtain ⟨hfile₁, hlinks₁⟩ := h₁.files q hq n hn hlinks
    obtain ⟨hfile₂, hlinks₂⟩ := h₂.files q (hplace ▸ hq) n (h₁.links q hq n hn) hlinks₁
    exact ⟨hfile₂.trans hfile₁, hlinks₂⟩
  · obtain ⟨n₁, hn₁, hmode₁⟩ := h₁.mode n hn
    obtain ⟨n', hn', hmode'⟩ := h₂.mode n₁ hn₁
    exact ⟨n', hn', hmode'.trans hmode₁⟩
  · exact h₁.names q hq n (h₂.names q (hplaces ▸ hq) n hn)

/-- Work under names of the installation's own that leaves the permissions of the bundle. -/
lemma of_touches (h : Touches ps d d') (hps : ps ⊆ i.backup :: i.books)
    (hmode : ∀ n, d.Points i.target n → (d'.file n).mode = (d.file n).mode) : i.Spares d d' where
  base := h.base
  folders q mode := h.entries q _
  links q _ n := h.entries q _
  files q _ n hn hlinks :=
    ⟨h.contents n ⟨q, hn⟩ fun p hp => hlinks p (hps hp),
      fun p hp => h.apart ⟨q, hn⟩ (hlinks p hp)⟩
  mode n hn := ⟨n, h.points hn, hmode n hn⟩
  names q hq n hn := by
    refine (h.fresh q n hn).resolve_right ?_
    rintro ⟨⟨p, hp, rfl⟩, -⟩
    exact hq (List.mem_map_of_mem (List.mem_cons_of_mem _ (hps hp)))

/-- A new file in the place of the bundle, with its permissions. -/
lemma of_replaced {bytes : List UInt8} (hplaces : (i.places d).Nodup)
    (h : d.Replaced i.target ⟨bytes, (d.mode? i.target).getD newFileMode⟩ d') : i.Spares d d' := by
  obtain ⟨k, -, hk, hfile, hsame⟩ := h.file
  refine ⟨h.base, fun q mode hq => ?_, fun q hq n hn => ?_,
    fun q hq n hn hlinks => ⟨hsame n ⟨q, hn⟩, fun p hp => ?_⟩, fun n hn => ⟨k, ?_, ?_⟩,
    fun q hq n hn => ?_⟩
  · rw [h.entries q, hq]
    rintro rfl
    exact h.free ⟨mode, hq⟩
  · rw [h.entries q hq, hn]
  · rw [h.points_of_ne (destination_ne_target hplaces hp)]
    exact hlinks p hp
  · rw [Points, h.destination, hk]
  · rw [hfile, mode?_of_fileNumber (fileNumber_eq_ok.2 ⟨h.located_before, hn⟩)]
    rfl
  · rwa [h.entries q] at hn
    rintro rfl
    exact hq List.mem_cons_self

/-- A path that leads to one of the files that are left alone. -/
theorem read_and_mode (h : i.Spares d d') (hp : d.fileNumber p = .ok n)
    (hplace : d.destination p ≠ d.destination i.target) (hlinks : i.Unlinked d n) :
    d'.read p = d.read p ∧ d'.mode? p = d.mode? p := by
  obtain ⟨hl, hentry⟩ := fileNumber_eq_ok.1 hp
  have hp' : d'.fileNumber p = .ok n := by
    rw [fileNumber_eq_ok, Points, destination_congr h.base]
    exact ⟨locate_of_folders h.base (fun q hq => hq.imp (h.folders q)) hl,
      h.links _ hplace n hentry⟩
  have hfile : d'.file n = d.file n := (h.files _ hplace n hentry hlinks).1
  rw [mode?_of_fileNumber hp', mode?_of_fileNumber hp, read_eq_ok.2 ⟨n, hp', rfl⟩,
    read_eq_ok.2 ⟨n, hp, rfl⟩, hfile]
  exact ⟨rfl, rfl⟩

end Spares

/-- Every file of an installation has a place of its own, and the fresh names to come are not in use,
not even for a bundle that is missing. -/
structure Orderly {σ : Type} [HasDisk σ] (i : Installation) (s : σ) : Prop where
  places : (i.places (disk s)).Nodup
  fresh : Fresh i.target s
  own : ∀ k, (disk s).destination (freshPath i.target k) ≠ (disk s).destination i.target

variable {σ : Type} [HasDisk σ] {s s₁ s' : σ}

namespace Orderly

lemma of_leads (h : i.Orderly s) (hps : ps ⊆ i.backup :: i.books) (hl : Leads ps s s') :
    i.Orderly s' where
  places := by
    rw [places_congr hl.1.base]
    exact h.places
  fresh := h.fresh.of_leads hps hl
  own k := by
    rw [hl.1.destination, hl.1.destination]
    exact h.own k

lemma of_replaced (h : i.Orderly s) {f : File}
    (hreplaced : (disk s).Replaced i.target f (disk s₁)) (hticks : ticks s ≤ ticks s₁) :
    i.Orderly s₁ where
  places := by
    rw [places_congr hreplaced.base]
    exact h.places
  fresh k hk n := by
    rw [hreplaced.points_of_ne (h.own k)]
    exact h.fresh k (Nat.le_trans hticks hk) n
  own k := by
    rw [hreplaced.destination, hreplaced.destination]
    exact h.own k

end Orderly

variable [Host (StateM σ)] [Faithful σ] {c : Cycle} {r : Cycle.Report}

/-- Copying the bundle over itself leaves its permissions too. -/
lemma spares_of_copy (h : d.copy i.target i.backup = .ok d') : i.Spares d d' := by
  obtain ⟨n, hn, hstored⟩ := copy_eq_ok h
  refine .of_touches hstored.touches (List.cons_subset_cons _ (List.nil_subset _)) fun m hm => ?_
  obtain rfl : m = n := hm.eq (fileNumber_eq_ok.1 hn).2
  rw [hstored.file]
  split <;> rfl

omit [Host (StateM σ)] [Faithful σ] in
lemma spares_of_leads_nil (hl : Leads [] s s') : i.Spares (disk s) (disk s') := by
  refine .of_touches hl.1 (List.nil_subset _) fun n hn => ?_
  rw [hl.1.contents n ⟨_, hn⟩ fun p hp => absurd hp List.not_mem_nil]

lemma spares_copyWithFolder (h : outcome (copyWithFolder i.target i.backup) s = (.ok (), s')) :
    i.Spares (disk s) (disk s') := by
  obtain ⟨s₁, hl, hcopy, -⟩ := copyWithFolder_eq_ok h
  exact (spares_of_leads_nil hl).trans (spares_of_copy hcopy)

lemma spares_keepBackup (h : outcome i.keepBackup s = (.ok (), s')) :
    i.Spares (disk s) (disk s') := by
  rcases keepBackup_cases h with ⟨-, hcopy⟩ | ⟨current, pristine, s₁, -, -, -, -, hl, hcases⟩
  · exact spares_copyWithFolder hcopy
  · rcases hcases with ⟨-, rfl⟩ | ⟨-, hcopy⟩
    · exact spares_of_leads_nil hl
    · exact (spares_of_leads_nil hl).trans (spares_copyWithFolder hcopy)

/-- Keeping the books after the bundle has been replaced. -/
lemma Orderly.replaceFile (h : i.Orderly s) {new : List UInt8}
    (hreplace : outcome (replaceFile i.target new) s = (.ok (), s₁)) (hl : Leads i.books s₁ s') :
    i.Spares (disk s) (disk s') ∧ i.Orderly s' := by
  have hcases := replaceFile_cases h.fresh.vacant new
  rw [hreplace] at hcases
  obtain ⟨hreplaced, hticks⟩ := hcases
  have hbooks : i.books ⊆ i.backup :: i.books := List.subset_cons_self _ _
  refine ⟨(Spares.of_replaced h.places hreplaced).trans (.of_touches hl.1 hbooks fun n hn => ?_),
    (h.of_replaced hreplaced (Nat.le_of_lt hticks)).of_leads hbooks hl⟩
  -- the new file has no name but the bundle's
  rw [hl.1.contents n ⟨_, hn⟩ fun p hp =>
    hreplaced.apart hn (destination_ne_target h.places (hbooks hp))]

lemma idle_runOn (c : Cycle) (t : Text) : Idle (σ := σ) (runOn c t) := by
  refine .bind (.ofExcept _) fun (done, report) => .bind ?_ fun _ => .pure _
  induction done.messages with
  | nil => exact .pure _
  | cons message messages ih => exact .bind (.ask (Faithful.report message)) fun _ => ih

/-- A dry run leaves the disk as it is, whether it succeeds or fails. -/
theorem idle_dryRun (i : Installation) (c : Cycle) : Idle (σ := σ) (i.apply c true) := by
  refine .bind (.bind (idle_isFile _) fun _ => .pure _) fun source => ?_
  refine .bind (idle_read _ _) fun bytes => .bind (.ofExcept _) fun bundle => ?_
  exact .bind (idle_runOn c _) fun _ => .pure _

/-- What one step leaves alone. -/
lemma Orderly.step (h : i.Orderly s) (step : Step)
    (hstep : outcome (step.work i) s = (.ok (), s')) :
    i.Spares (disk s) (disk s') ∧ i.Orderly s' := by
  cases step with
  | apply c dryRun =>
    obtain ⟨r, happly⟩ := work_apply_eq_ok hstep
    cases dryRun with
    | true =>
      have hl := (within_dryRun i c).leads happly
      exact ⟨spares_of_leads_nil hl, h.of_leads (List.nil_subset _) hl⟩
    | false =>
      obtain ⟨s₁, s₂, s₃, bytes, new, hkeep, -, -, hl, hreplace, hbooks⟩ := apply_eq_ok happly
      have h₁ := h.of_leads (List.cons_subset_cons _ (List.nil_subset _))
        ((within_keepBackup i).leads hkeep)
      have h₂ := h₁.of_leads (List.nil_subset _) hl
      obtain ⟨hspares, h₃⟩ := h₂.replaceFile hreplace hbooks
      exact ⟨((spares_keepBackup hkeep).trans (spares_of_leads_nil hl)).trans hspares, h₃⟩
  | restore =>
    obtain ⟨s₁, s₂, bytes, -, -, hl, hreplace, hbooks⟩ := restore_eq_ok hstep
    have h₁ := h.of_leads (List.nil_subset _) hl
    obtain ⟨hspares, h₂⟩ := h₁.replaceFile hreplace hbooks
    exact ⟨(spares_of_leads_nil hl).trans hspares, h₂⟩

lemma Orderly.run (h : i.Orderly s) {steps : List Step} (hrun : run? i s steps = some s') :
    i.Spares (disk s) (disk s') := by
  induction steps generalizing s with
  | nil =>
    cases hrun
    exact .refl i _
  | cons step steps ih =>
    rw [run?] at hrun
    split at hrun
    · next s₁ hstep =>
      obtain ⟨hspares, h₁⟩ := h.step step hstep
      exact hspares.trans (ih h₁ hrun)
    · cases hrun

/-- A run writes to the bundle, the backup and the books, and to nothing else. Every other file keeps its
bytes and permissions unless it is a link of the backup or of a book, and in particular the other links of
the bundle do. The bundle keeps its permissions, and no fresh file is left. A dry run writes nothing. -/
theorem run_spares (h : i.Orderly s) {steps : List Step} (hrun : run? i s steps = some s') :
    i.Spares (disk s) (disk s') ∧
      (∀ p n, (disk s).fileNumber p = .ok n →
        (disk s).destination p ≠ (disk s).destination i.target → i.Unlinked (disk s) n →
          (disk s').read p = (disk s).read p ∧ (disk s').mode? p = (disk s).mode? p) ∧
      ∀ (c : Cycle) (s₁ : σ), disk (outcome (i.apply c true) s₁).2 = disk s₁ :=
  have hspares := h.run hrun
  ⟨hspares, fun _ _ => hspares.read_and_mode, idle_dryRun i⟩

/-- A bundle with another link and permissions of its own. -/
def linked : Machine := .ofDisk
  ⟨.ofList [(["w"], .folder 0o755), (["w", "cli.js"], .file 0), (["w", "copy.js"], .file 0)],
    .ofList [(0, ⟨"// Version: 1.0.0".toUTF8.toList, 0o755⟩)], ["w"]⟩

/-- A cycle that moves the release within its line. -/
def marking : Cycle where
  settings := .default
  prompts := [⟨"mark", "", "", ["// V".toList], [], .empty, [], some "//  V".toList⟩]
  reporting := ⟨false, false⟩

lemma orderly_linked : Orderly ⟨"cli.js", "st"⟩ linked := by
  refine ⟨by decide +kernel, fresh_of_visible _ (by decide +kernel), fun k heq => ?_⟩
  have hlast : ((disk linked).destination (freshPath "cli.js" k)).getLast? = some (freshName k) :=
    destination_join _ _ (isName_freshName k)
  have hplace : (disk linked).destination "cli.js" = ["w", "cli.js"] := by decide +kernel
  rw [heq, hplace] at hlast
  exact ne_freshName (by decide) k (Option.some.inj hlast)

/-- The other link reads as before, after the bundle has been changed, put back and changed again. -/
theorem read_linked :
    let i : Installation := ⟨"cli.js", "st"⟩
    let steps := [Step.apply marking false, .restore, .apply marking false]
    i.Orderly linked ∧ ∃ s', run? i linked steps = some s' ∧ i.Spares (disk linked) (disk s') ∧
      (disk s').read "copy.js" = (disk linked).read "copy.js" ∧
      (disk s').read "cli.js" ≠ (disk linked).read "cli.js" := by
  intro i steps
  have hrun : (run? i linked steps).any fun s' =>
      (disk s').read "cli.js" ≠ (disk linked).read "cli.js" := by decide +kernel
  obtain ⟨s', hs', hchanged⟩ := (Option.any_eq_true _ _).1 hrun
  obtain ⟨hspares, hread, -⟩ := run_spares orderly_linked hs'
  have hnone : ∀ p ∈ i.backup :: i.books,
      entry? (disk linked) ((disk linked).destination p) = none := by decide +kernel
  have hlinks : i.Unlinked (disk linked) 0 := fun p hp => Points.not_of_none (hnone p hp) 0
  have hcopy := hread "copy.js" 0 (by decide +kernel) (by decide +kernel) hlinks
  exact ⟨orderly_linked, s', hs', hspares, hcopy.1, of_decide_eq_true hchanged⟩

end Retouch.Installation
