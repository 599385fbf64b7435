import Mathlib.Data.List.DropRight
import Retouch.Proofs.Cycle.Total
import Retouch.Proofs.Installation.Runs
import Retouch.Proofs.Prompt.Ledger

/-! What the ledgers of an installation tell after a run. Each prompt that a cycle reports to be in the
bundle is recorded with its hashes, and a restore forgets what was applied. So a ledger tells of a prompt
what the latest cycle had that reported it, as far back as the ledger remembers. -/
namespace Retouch

open HasDisk Disk Retouch.Task

/-- The prompt with an id, if it is reported to be in the bundle. -/
def Prompt.settled? (ps : List Prompt) (outcomes : List (String × Prompt.Outcome)) (id : String) :
    Option Prompt :=
  if (id, .applied) ∈ outcomes ∨ (id, .unchanged) ∈ outcomes then ps.find? (·.id = id) else none

namespace Installation

/-- A step that has succeeded, with what a cycle that writes has reported. -/
inductive Event where
  | applied (c : Cycle) (r : Cycle.Report)
  | restored

namespace Event

def isRestored : Event → Bool
  | .applied _ _ => false
  | .restored => true

/-- The prompt with an id, as a cycle had it that has reported it to be in the bundle. -/
def settled? (id : String) : Event → Option Prompt
  | .applied c r => Prompt.settled? c.prompts r.prompts id
  | .restored => none

end Event

/-- The prompt with an id, as the latest of the cycles had it that have reported it. -/
def latest? (id : String) (es : List Event) : Option Prompt := es.reverse.findSome? (Event.settled? id)

/-- The events after the last restore. -/
def sinceRestore (es : List Event) : List Event := es.rtakeWhile (!·.isRestored)

section Events

variable (id : String) (es : List Event)

lemma latest?_append_singleton (e : Event) :
    latest? id (es ++ [e]) = (e.settled? id).or (latest? id es) := by
  rw [latest?, List.reverse_append, List.reverse_singleton, List.singleton_append,
    List.findSome?_cons]
  cases e.settled? id <;> rfl

lemma sinceRestore_applied (c : Cycle) (r : Cycle.Report) :
    sinceRestore (es ++ [.applied c r]) = sinceRestore es ++ [.applied c r] :=
  List.rtakeWhile_concat_pos _ _ _ rfl

lemma sinceRestore_restored : sinceRestore (es ++ [.restored]) = [] :=
  List.rtakeWhile_concat_neg _ _ _ (by decide)

end Events

/-! ## Recording -/

lemma recordPrompts_cons (p : Prompt) (ps : List Prompt) (id : String) (outcome : Prompt.Outcome)
    (outcomes : List (String × Prompt.Outcome)) (applied reference : Ledger) :
    recordPrompts (p :: ps) ((id, outcome) :: outcomes) applied reference =
      if outcome = .applied ∨ outcome = .unchanged then
        recordPrompts ps outcomes (applied.record p.id p.customHash)
          (reference.record p.id (some p.referenceHash))
      else recordPrompts ps outcomes applied reference := by
  cases outcome <;> simp [recordPrompts]

section Settled

variable {p : Prompt} {ps : List Prompt} {outcome : Prompt.Outcome}
  {outcomes : List (String × Prompt.Outcome)} {id : String}

lemma settled?_of_not_mem (h : id ∉ outcomes.map (·.1)) : Prompt.settled? ps outcomes id = none := by
  have hnone (outcome : Prompt.Outcome) : (id, outcome) ∉ outcomes := fun hmem =>
    h (List.mem_map_of_mem hmem)
  rw [Prompt.settled?, if_neg]
  exact fun hmem => hmem.elim (hnone _) (hnone _)

lemma settled?_cons_self (h : p.id ∉ outcomes.map (·.1)) :
    Prompt.settled? (p :: ps) ((p.id, outcome) :: outcomes) p.id =
      if outcome = .applied ∨ outcome = .unchanged then some p else none := by
  have hnone (outcome : Prompt.Outcome) : (p.id, outcome) ∉ outcomes := fun hmem =>
    h (List.mem_map_of_mem hmem)
  simp [Prompt.settled?, hnone, eq_comm]

lemma settled?_cons_of_ne (h : p.id ≠ id) :
    Prompt.settled? (p :: ps) ((p.id, outcome) :: outcomes) id = Prompt.settled? ps outcomes id := by
  simp [Prompt.settled?, h, Ne.symm h]

/-- A prompt that is reported to be in the bundle is recorded, and the entries of all others stay. -/
lemma get?_recordPrompts (hids : outcomes.map (·.1) = ps.map (·.id)) (hnodup : (ps.map (·.id)).Nodup)
    (applied reference : Ledger) (id : String) :
    (recordPrompts ps outcomes applied reference).1.get? id =
        ((Prompt.settled? ps outcomes id).map Prompt.customHash).or (applied.get? id) ∧
      (recordPrompts ps outcomes applied reference).2.get? id =
        ((Prompt.settled? ps outcomes id).map fun p => some p.referenceHash).or
          (reference.get? id) := by
  induction ps generalizing outcomes applied reference with
  | nil =>
    obtain rfl := List.map_eq_nil_iff.1 hids
    exact ⟨rfl, rfl⟩
  | cons p ps ih =>
    obtain ⟨⟨id', outcome⟩, outcomes, rfl, hid', hrest⟩ := List.map_eq_cons_iff.1 hids
    obtain rfl : id' = p.id := hid'
    obtain ⟨hnew, hnodup⟩ := List.nodup_cons.1 hnodup
    have hnew' : p.id ∉ outcomes.map (·.1) := hrest ▸ hnew
    rw [recordPrompts_cons]
    by_cases hid : p.id = id
    · subst hid
      rw [settled?_cons_self hnew']
      split
      · obtain ⟨happlied, hreference⟩ := ih hrest hnodup (applied.record p.id p.customHash)
          (reference.record p.id (some p.referenceHash))
        rw [happlied, hreference, settled?_of_not_mem hnew']
        simp [Ledger.record]
      · obtain ⟨happlied, hreference⟩ := ih hrest hnodup applied reference
        rw [happlied, hreference, settled?_of_not_mem hnew']
        exact ⟨rfl, rfl⟩
    · rw [settled?_cons_of_ne hid]
      split
      · obtain ⟨happlied, hreference⟩ := ih hrest hnodup (applied.record p.id p.customHash)
          (reference.record p.id (some p.referenceHash))
        rw [happlied, hreference]
        simp [Ledger.record, Ne.symm hid]
      · exact ih hrest hnodup applied reference

end Settled

/-! ## What a step does to the ledgers -/

variable {σ : Type} [HasDisk σ] [Host (StateM σ)] {s s₁ s₂ s' : σ} {i : Installation} {c : Cycle}
  {r : Cycle.Report} {applied reference : Ledger} {es : List Event}

/-- The two ledgers are kept, and the bundle is neither of them. -/
structure KeepsLedgers (i : Installation) (applied reference : Ledger) (s : σ) : Prop where
  applied : applied.Kept (disk s) i.appliedLedger
  reference : reference.Kept (disk s) i.referenceLedger
  apart : ∀ p ∈ [i.appliedLedger, i.referenceLedger],
    (disk s).destination p ≠ (disk s).destination i.target

omit [Host (StateM σ)] in
lemma KeepsLedgers.of_elsewhere (h : KeepsLedgers i applied reference s)
    (helse : ∀ p ∈ [i.appliedLedger, i.referenceLedger], (disk s).Elsewhere p (disk s')) :
    KeepsLedgers i applied reference s' where
  applied := h.applied.of_elsewhere (helse _ (by simp))
  reference := h.reference.of_elsewhere (helse _ (by simp))
  apart p hp := by
    rw [(helse p hp).destination, (helse p hp).destination]
    exact h.apart p hp

lemma destination_log_ne (i : Installation) (d : Disk) :
    ∀ p ∈ [i.appliedLedger, i.referenceLedger], d.destination i.log ≠ d.destination p := by
  have hlog : IsName "apply_log.jsonl" := ⟨by decide, rfl, rfl⟩
  intro p hp
  rcases List.mem_pair.1 hp with rfl | rfl
  · exact d.destination_join_ne _ _ hlog ⟨by decide, rfl, rfl⟩ (by decide)
  · exact d.destination_join_ne _ _ hlog ⟨by decide, rfl, rfl⟩ (by decide)

lemma destination_appliedLedger_ne (i : Installation) (d : Disk) :
    d.destination i.appliedLedger ≠ d.destination i.referenceLedger :=
  d.destination_join_ne _ _ ⟨by decide, rfl, rfl⟩ ⟨by decide, rfl, rfl⟩ (by decide)

lemma mem_books_of_ledger {p : Path} (hp : p ∈ [i.appliedLedger, i.referenceLedger]) :
    p ∈ i.books := by
  rcases List.mem_pair.1 hp with rfl | rfl <;> simp [books]

omit [Host (StateM σ)] in
/-- Seeing to the backup and keeping the history is done elsewhere. -/
lemma KeepsLedgers.of_leads (h : KeepsLedgers i applied reference s) {ps : List Path}
    (hps : ps ⊆ [i.backup, i.log]) (hl : Leads ps s s') : KeepsLedgers i applied reference s' := by
  refine h.of_elsewhere fun p hp => .of_touches hl.1 fun q hq => ?_
  rcases List.mem_pair.1 (hps hq) with rfl | rfl
  · exact (destination_ne_backup (mem_books_of_ledger hp) _).symm
  · exact destination_log_ne i _ p hp

variable [Faithful σ]

/-- A file is replaced elsewhere, even if the fresh name should be in use. -/
lemma elsewhere_replaceFile {p q : Path} {bytes : List UInt8}
    (h : outcome (replaceFile p bytes) s = (.ok (), s'))
    (hplace : (disk s).destination p ≠ (disk s).destination q)
    (hfresh : ∀ k, (disk s).destination (freshPath p k) ≠ (disk s).destination q) :
    (disk s).Elsewhere q (disk s') := by
  obtain ⟨s₁, hdisk, -, hrun⟩ := outcome_replaceFile p bytes s
  rw [hrun] at h
  obtain ⟨u, s₂, hmake, htake⟩ := bind_eq_ok.1 h
  obtain ⟨f, hstored⟩ := makeFile_eq_ok hmake
  rw [hdisk] at hstored
  have hmade := hstored.touches
  refine (Elsewhere.of_touches hmade fun p' hp' => ?_).trans
    (.of_rename (takeOver_eq_ok htake) hstored.fileNumber ?_ ?_)
  · rw [List.mem_singleton.1 hp']
    exact hfresh _
  · rw [hmade.destination, hmade.destination]
    exact hfresh _
  · rw [hmade.destination, hmade.destination]
    exact hplace

lemma KeepsLedgers.replaceFile (h : KeepsLedgers i applied reference s) {bytes : List UInt8}
    (hreplace : outcome (replaceFile i.target bytes) s = (.ok (), s')) :
    KeepsLedgers i applied reference s' :=
  h.of_elsewhere fun p hp => elsewhere_replaceFile hreplace (h.apart p hp).symm
    (destination_ne_freshPath (List.mem_cons_of_mem _ (mem_books_of_ledger hp)) _ _)

/-- Saving one ledger is done elsewhere than the other one is kept. -/
lemma KeepsLedgers.save_applied (h : KeepsLedgers i applied reference s) {ledger : Ledger}
    (hsave : outcome (ledger.save i.appliedLedger) s = (.ok (), s')) :
    KeepsLedgers i ledger reference s' := by
  have hl := (Ledger.within_save ledger i.appliedLedger).leads hsave
  refine ⟨Ledger.save_eq_ok h.applied hsave, h.reference.of_elsewhere (.of_touches hl.1 ?_), fun p hp => ?_⟩
  · rintro q hq
    rw [List.mem_singleton.1 hq]
    exact destination_appliedLedger_ne i _
  · rw [hl.1.destination, hl.1.destination]
    exact h.apart p hp

lemma KeepsLedgers.save_reference (h : KeepsLedgers i applied reference s) {ledger : Ledger}
    (hsave : outcome (ledger.save i.referenceLedger) s = (.ok (), s')) :
    KeepsLedgers i applied ledger s' := by
  have hl := (Ledger.within_save ledger i.referenceLedger).leads hsave
  refine ⟨h.applied.of_elsewhere (.of_touches hl.1 ?_), Ledger.save_eq_ok h.reference hsave, fun p hp => ?_⟩
  · rintro q hq
    rw [List.mem_singleton.1 hq]
    exact (destination_appliedLedger_ne i _).symm
  · rw [hl.1.destination, hl.1.destination]
    exact h.apart p hp

lemma KeepsLedgers.of_load (h : KeepsLedgers i applied reference s) {p : Path} {ledger : Ledger}
    (hload : outcome (Ledger.load p) s = (.ok ledger, s')) : KeepsLedgers i applied reference s' :=
  h.of_leads (List.nil_subset _) ((Ledger.within_load [] p).leads hload)

/-- What is saved after a cycle is what was kept, with the prompts of the cycle recorded. -/
lemma KeepsLedgers.savePrompts (h : KeepsLedgers i applied reference s) {ps : List Prompt}
    (hsave : outcome (i.savePrompts ps r) s = (.ok (), s')) :
    KeepsLedgers i (recordPrompts ps r.prompts applied reference).1
      (recordPrompts ps r.prompts applied reference).2 s' := by
  rw [Installation.savePrompts] at hsave
  split at hsave
  · next hempty =>
    cases hsave
    rw [List.isEmpty_iff.1 hempty]
    exact h
  · obtain ⟨applied', s₁, happlied, hsave⟩ := bind_eq_ok.1 hsave
    obtain ⟨reference', s₂, hreference, hsave⟩ := bind_eq_ok.1 hsave
    obtain ⟨u, s₃, hfirst, hlast⟩ := bind_eq_ok.1 hsave
    have h₁ := h.of_load happlied
    obtain rfl := Ledger.eq_of_load h.applied happlied
    obtain rfl := Ledger.eq_of_load h₁.reference hreference
    exact ((h₁.of_load hreference).save_applied hfirst).save_reference hlast

/-- A report names the prompts of its cycle in order. -/
lemma ids_of_reportOn? {bytes : List UInt8} (h : reportOn? c bytes = some r) :
    r.prompts.map (·.1) = c.prompts.map (·.id) := by
  obtain ⟨b, done, -, hrun⟩ := run_of_reportOn? h
  obtain ⟨done', r', hrun', -, -, hids, -⟩ := c.exists_run b.text
  obtain ⟨rfl, rfl⟩ : done' = done ∧ r' = r := by simpa using hrun'.symm.trans hrun
  exact hids

/-- A cycle that writes records its prompts. -/
lemma KeepsLedgers.apply (h : KeepsLedgers i applied reference s)
    (happly : outcome (i.apply c false) s = (.ok r, s')) :
    r.prompts.map (·.1) = c.prompts.map (·.id) ∧
      KeepsLedgers i (recordPrompts c.prompts r.prompts applied reference).1
        (recordPrompts c.prompts r.prompts applied reference).2 s' := by
  obtain ⟨s₁, s₂, s₃, bytes, new, hkeep, -, -, hreport, hl, hreplace, hbooks⟩ := phases_of_apply happly
  obtain ⟨u, s₄, hsave, hrecord⟩ := bind_eq_ok.1 hbooks
  have hbackup : Leads [i.backup] s s₁ := (within_keepBackup i).leads hkeep
  have h₁ := h.of_leads (List.cons_subset_cons _ (List.nil_subset _)) hbackup
  have h₂ := h₁.of_leads (List.nil_subset _) hl
  have h₄ := (h₂.replaceFile hreplace).savePrompts hsave
  exact ⟨ids_of_reportOn? hreport,
    h₄.of_leads (List.subset_cons_self _ _) ((History.within_record _ _).leads hrecord)⟩

/-- A restore forgets what was applied, and remembers the reference texts. -/
lemma KeepsLedgers.restore (h : KeepsLedgers i applied reference s)
    (hrestore : outcome i.restore s = (.ok (), s')) : KeepsLedgers i .empty reference s' := by
  obtain ⟨s₁, s₂, bytes, -, -, hl, hreplace, hforget⟩ := phases_of_restore hrestore
  obtain ⟨ledger, s₃, hload, hforget⟩ := bind_eq_ok.1 hforget
  obtain ⟨u, s₄, hsave, hrecord⟩ := bind_eq_ok.1 hforget
  have h₁ := h.of_leads (List.nil_subset _) hl
  have h₃ := (h₁.replaceFile hreplace).of_load hload
  exact (h₃.save_applied hsave).of_leads (List.subset_cons_self _ _)
    ((History.within_record _ _).leads hrecord)

/-! ## Runs -/

/-- Steps that all succeed, one after the other. -/
inductive Ran (i : Installation) (s : σ) : List Event → σ → Prop where
  | nil : Ran i s [] s
  | apply {es : List Event} {s₁ s' : σ} {c : Cycle} {r : Cycle.Report} (before : Ran i s es s₁)
      (last : outcome (i.apply c false) s₁ = (.ok r, s')) : Ran i s (es ++ [.applied c r]) s'
  | restore {es : List Event} {s₁ s' : σ} (before : Ran i s es s₁)
      (last : outcome i.restore s₁ = (.ok (), s')) : Ran i s (es ++ [.restored]) s'

/-- The ledgers after a run are those that its events tell. -/
lemma KeepsLedgers.ran (h : KeepsLedgers i .empty .empty s)
    (hids : ∀ c r, .applied c r ∈ es → (c.prompts.map (·.id)).Nodup) (hran : Ran i s es s') :
    ∃ applied reference, KeepsLedgers i applied reference s' ∧
      (∀ id, applied.get? id = (latest? id (sinceRestore es)).map Prompt.customHash) ∧
      ∀ id, reference.get? id = (latest? id es).map fun p => some p.referenceHash := by
  induction hran with
  | nil => exact ⟨.empty, .empty, h, fun _ => rfl, fun _ => rfl⟩
  | @apply es s₁ s' c r before last ih =>
    obtain ⟨applied, reference, hkeeps, happlied, hreference⟩ :=
      ih fun c r hmem => hids c r (List.mem_append_left _ hmem)
    obtain ⟨hreported, hkeeps⟩ := hkeeps.apply last
    refine ⟨_, _, hkeeps, fun id => ?_, fun id => ?_⟩
    all_goals
      obtain ⟨hget, hget'⟩ := get?_recordPrompts hreported (hids c r (by simp)) applied reference id
    · rw [hget, happlied, sinceRestore_applied, latest?_append_singleton, Option.map_or]
      rfl
    · rw [hget', hreference, latest?_append_singleton, Option.map_or]
      rfl
  | restore before last ih =>
    obtain ⟨applied, reference, hkeeps, -, hreference⟩ :=
      ih fun c r hmem => hids c r (List.mem_append_left _ hmem)
    refine ⟨.empty, reference, hkeeps.restore last, fun id => ?_, fun id => ?_⟩
    · rw [sinceRestore_restored]
      rfl
    · rw [hreference, latest?_append_singleton]
      rfl

def Event.step : Event → Step
  | .applied c _ => .apply c false
  | .restored => .restore

omit [HasDisk σ] [Faithful σ] in
/-- Steps that all succeed, none of them a dry run, make events. -/
lemma exists_ran {steps : List Step} (hwrites : ∀ c, .apply c true ∉ steps)
    (h : run? i s steps = some s') : ∃ es, es.map Event.step = steps ∧ Ran i s es s' := by
  induction steps using List.reverseRecOn generalizing s' with
  | nil =>
    cases h
    exact ⟨[], rfl, .nil⟩
  | append_singleton steps step ih =>
    rw [run?_append] at h
    obtain ⟨s₁, hbefore, hlast⟩ := Option.bind_eq_some_iff.1 h
    obtain ⟨es, rfl, hran⟩ := ih (fun c hmem => hwrites c (List.mem_append_left _ hmem)) hbefore
    rw [run?] at hlast
    split at hlast
    · next s₂ hstep =>
      cases hlast
      cases step with
      | apply c dryRun =>
        obtain ⟨r, happly⟩ := work_apply_eq_ok hstep
        cases dryRun with
        | true => exact absurd (by simp) (hwrites c)
        | false => exact ⟨es ++ [.applied c r], by simp [Event.step], .apply hran happly⟩
      | restore => exact ⟨es ++ [.restored], by simp [Event.step], .restore hran hstep⟩
    · cases hlast

/-- Where a run finds no ledgers, its events tell what is in them afterwards. The applied ledger has the
hash that a prompt had in the latest cycle since the last restore that reported it. The reference ledger
has that of its reference text, whether or not there was a restore. And a prompt is pending if its hash is
another one than that of the entry, or if it has a hash and there is no entry. -/
theorem ledgers_of_ran {s s' : Machine}
    (hnone : ∀ p ∈ [i.appliedLedger, i.referenceLedger], ∀ n, ¬(disk s).Points p n)
    (hapart : ∀ p ∈ [i.appliedLedger, i.referenceLedger],
      (disk s).destination p ≠ (disk s).destination i.target)
    (hids : ∀ c r, .applied c r ∈ es → (c.prompts.map (·.id)).Nodup) (hran : Ran i s es s') :
    ∃ applied reference, Ledger.Loads s' i.appliedLedger applied ∧
      Ledger.Loads s' i.referenceLedger reference ∧
      (∀ id, applied.get? id = (latest? id (sinceRestore es)).map Prompt.customHash) ∧
      (∀ id, reference.get? id = (latest? id es).map fun p => some p.referenceHash) ∧
      ∀ ps, applied.pending ps = (ps.filter fun p =>
        match latest? p.id (sinceRestore es) with
        | some q => p.customHash ≠ q.customHash
        | none => p.customHash.isSome).map (·.id) := by
  have hempty : KeepsLedgers i .empty .empty s :=
    ⟨.inl ⟨hnone _ (by simp), rfl⟩, .inl ⟨hnone _ (by simp), rfl⟩, hapart⟩
  obtain ⟨applied, reference, hkeeps, happlied, hreference⟩ := hempty.ran hids hran
  refine ⟨applied, reference, hkeeps.applied.loads, hkeeps.reference.loads, happlied, hreference,
    fun ps => ?_⟩
  have hpending (p : Prompt) : applied.isPending p =
      match latest? p.id (sinceRestore es) with
      | some q => decide (p.customHash ≠ q.customHash)
      | none => p.customHash.isSome := by
    rw [Ledger.isPending, happlied]
    cases latest? p.id (sinceRestore es) with
    | none => rfl
    | some q =>
      dsimp only [Option.map_some]
      rw [Bool.eq_iff_iff, bne_iff_ne, decide_eq_true_iff]
      exact ne_comm
  rw [Ledger.pending, funext hpending]

/-- A bundle without any state. -/
def greeted : Machine := .ofDisk
  ⟨.ofList [(["w"], .folder 0o755), (["w", "cli.js"], .file 0)],
    .ofList [(0, ⟨"Hi.".toUTF8.toList, 0o644⟩)], ["w"]⟩

/-- A cycle with a prompt that is found, and one that is not. -/
def welcoming : Cycle where
  settings := .default
  prompts := [⟨"hi", "", "", ["Hi.".toList], [], .empty, [], some "Ho.".toList⟩,
    ⟨"bye", "", "", ["Bye.".toList], [], .empty, [], some "Ho.".toList⟩]
  reporting := ⟨false, false⟩

lemma eq_of_map_step {c : Cycle} {es : List Event}
    (h : es.map Event.step = [.apply c false, .restore]) : ∃ r, es = [.applied c r, .restored] := by
  obtain ⟨first, es, rfl, hfirst, h⟩ := List.map_eq_cons_iff.1 h
  obtain ⟨last, es, rfl, hlast, h⟩ := List.map_eq_cons_iff.1 h
  obtain rfl := List.map_eq_nil_iff.1 h
  cases first with
  | restored => cases hfirst
  | applied c r =>
    cases hfirst
    cases last with
    | restored => exact ⟨r, rfl⟩
    | applied c r => cases hlast

/-- A restore forgets what has been applied, but not the reference texts. -/
theorem ledgers_greeted :
    let i : Installation := ⟨"cli.js", "st"⟩
    ∃ r s' applied reference, Ran i greeted [.applied welcoming r, .restored] s' ∧
      Ledger.Loads s' i.appliedLedger applied ∧ Ledger.Loads s' i.referenceLedger reference ∧
      (∀ id, applied.get? id = none) ∧
      ∀ id, reference.get? id = (Prompt.settled? welcoming.prompts r.prompts id).map fun p =>
        some p.referenceHash := by
  intro i
  have hrun : (run? i greeted [.apply welcoming false, .restore]).isSome = true := by decide +kernel
  have hnone : ∀ p ∈ [i.appliedLedger, i.referenceLedger],
      entry? (disk greeted) ((disk greeted).destination p) = none := by decide +kernel
  obtain ⟨s', hs'⟩ := Option.isSome_iff_exists.1 hrun
  obtain ⟨es, hes, hran⟩ := exists_ran (by simp) hs'
  obtain ⟨r, rfl⟩ := eq_of_map_step hes
  have hids : ∀ c r', .applied c r' ∈ [.applied welcoming r, Event.restored] →
      (c.prompts.map (·.id)).Nodup := by
    intro c r' hmem
    obtain ⟨rfl, -⟩ : c = welcoming ∧ r' = r := by simpa using hmem
    decide
  obtain ⟨applied, reference, happlied, hreference, hget, hget', -⟩ :=
    ledgers_of_ran (fun p hp => Points.not_of_none (hnone p hp)) (by decide +kernel) hids hran
  refine ⟨r, s', applied, reference, hran, happlied, hreference, fun id => hget id, fun id => ?_⟩
  have hlatest : latest? id [.applied welcoming r, .restored] =
      Prompt.settled? welcoming.prompts r.prompts id :=
    (latest?_append_singleton id [.applied welcoming r] .restored).trans
      ((latest?_append_singleton id [] (.applied welcoming r)).trans Option.or_none)
  rw [hget', hlatest]

end Installation
end Retouch
