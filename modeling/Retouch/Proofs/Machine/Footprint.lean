import Retouch.Proofs.Machine.Faithful

/-! The paths under which a task writes. A task stays within some paths if, whatever comes of it, it has
only made folders and written files under them. Chains of tasks stay within the paths of their parts, so
nothing has to be known about what the parts find on the disk. -/
namespace Retouch

open HasDisk

variable {σ : Type} [HasDisk σ] {ps qs : List Path} {s s₁ s₂ s' : σ}

/-- One state leads to another one by work within some paths. -/
def Leads (ps : List Path) (s s' : σ) : Prop :=
  (disk s).Touches ps (disk s') ∧ ticks s ≤ ticks s'

namespace Leads

lemma refl (ps : List Path) (s : σ) : Leads ps s s := ⟨.refl ps _, Nat.le_refl _⟩

lemma trans (h₁ : Leads ps s s₁) (h₂ : Leads ps s₁ s₂) : Leads ps s s₂ :=
  ⟨h₁.1.trans h₂.1, Nat.le_trans h₁.2 h₂.2⟩

lemma mono (h : Leads ps s s') (hsub : ps ⊆ qs) : Leads qs s s' := ⟨h.1.mono hsub, h.2⟩

lemma of_looks {α : Type} {action : StateM σ α} (h : Looks action) (ps : List Path) (s : σ) :
    Leads ps s (action.run s).2 := by
  obtain ⟨hdisk, hticks⟩ := h s
  refine ⟨?_, hticks⟩
  rw [hdisk]
  exact .refl ps _

lemma of_acts {action : StateM σ (Except DiskError Unit)} {whole : Disk → Except DiskError Disk}
    {partly : Disk → Disk → Prop} (h : Acts action whole partly)
    (hwhole : ∀ d d', whole d = .ok d' → d.Touches ps d')
    (hpartly : ∀ d d', partly d d' → d.Touches ps d') (s : σ) :
    Leads ps s (action.run s).2 := by
  obtain ⟨hticks, hend⟩ := h s
  refine ⟨?_, Nat.le_of_eq hticks.symm⟩
  split at hend
  · exact hwhole _ _ hend
  · rcases hend with hsame | hpart
    · rw [hsame]
      exact .refl ps _
    · exact hpartly _ _ hpart

end Leads

namespace Task

variable {α β : Type} {t : Task (StateM σ) α}

def Within (ps : List Path) (t : Task (StateM σ) α) : Prop := ∀ s, Leads ps s (t.outcome s).2

/-- What follows a task adds no more than its own footprint. -/
lemma leads_bind {k : α → Task (StateM σ) β} (ht : Leads ps s (t.outcome s).2)
    (hk : ∀ a, Within ps (k a)) : Leads ps s (outcome (t >>= k) s).2 := by
  rw [outcome_bind]
  split
  · next a s₁ heq =>
    rw [heq] at ht
    exact ht.trans (hk a s₁)
  · next f s₁ heq =>
    rw [heq] at ht
    exact ht

namespace Within

lemma leads (h : Within ps t) {result : Except Failure α} (hrun : t.outcome s = (result, s')) :
    Leads ps s s' := by
  have hl := h s
  rw [hrun] at hl
  exact hl

lemma mono (h : Within ps t) (hsub : ps ⊆ qs) : Within qs t := fun s => (h s).mono hsub

lemma pure (ps : List Path) (a : α) : Within ps (Pure.pure a : Task (StateM σ) α) := .refl ps

lemma fail (ps : List Path) (f : Failure) : Within ps (Task.fail f : Task (StateM σ) α) := .refl ps

lemma ofExcept (ps : List Path) (result : Except Failure α) :
    Within ps (Task.ofExcept result : Task (StateM σ) α) := .refl ps

lemma bind {k : α → Task (StateM σ) β} (ht : Within ps t) (hk : ∀ a, Within ps (k a)) :
    Within ps (t >>= k) := fun s => leads_bind (ht s) hk

lemma ite {c : Prop} [Decidable c] {t' : Task (StateM σ) α} (ht : Within ps t)
    (ht' : Within ps t') : Within ps (if c then t else t') := by
  split
  · exact ht
  · exact ht'

lemma request {action : StateM σ (Except DiskError α)}
    (h : ∀ s, Leads ps s (action.run s).2) (message : String) :
    Within ps (Task.request message action) := by
  intro s
  rw [outcome_request]
  exact h s

lemma ask {action : StateM σ α} (h : ∀ s, Leads ps s (action.run s).2) :
    Within ps (Task.ask action) := h

end Within

/-- Whatever comes of the task, it leaves the disk as it is. -/
def Idle (t : Task (StateM σ) α) : Prop := ∀ s, disk (t.outcome s).2 = disk s

namespace Idle

lemma pure (a : α) : Idle (Pure.pure a : Task (StateM σ) α) := fun _ => rfl

lemma ofExcept (result : Except Failure α) : Idle (Task.ofExcept result : Task (StateM σ) α) :=
  fun _ => rfl

lemma bind {k : α → Task (StateM σ) β} (ht : Idle t) (hk : ∀ a, Idle (k a)) : Idle (t >>= k) := by
  intro s
  have hfirst := ht s
  rw [outcome_bind]
  split
  · next a s₁ heq =>
    rw [heq] at hfirst
    exact (hk a s₁).trans hfirst
  · next f s₁ heq =>
    rw [heq] at hfirst
    exact hfirst

lemma request {action : StateM σ (Except DiskError α)} (h : Looks action) (message : String) :
    Idle (Task.request message action) := by
  intro s
  rw [outcome_request]
  exact (h s).1

lemma ask {action : StateM σ α} (h : Looks action) : Idle (Task.ask action) := fun s => (h s).1

end Idle

/-- A request succeeds if it is served in whole. -/
lemma request_cases {action : StateM σ (Except DiskError Unit)}
    {whole : Disk → Except DiskError Disk} {partly : Disk → Disk → Prop}
    (h : Acts action whole partly) (message : String) (s : σ) :
    (∃ s', outcome (request message action) s = (.ok (), s') ∧
      whole (disk s) = .ok (disk s') ∧ ticks s' = ticks s) ∨
    ∃ f s', outcome (request message action) s = (.error f, s') ∧
      (disk s' = disk s ∨ partly (disk s) (disk s')) ∧ ticks s' = ticks s := by
  obtain ⟨hticks, hend⟩ := h s
  rw [outcome_request]
  cases hresult : (action.run s).1 with
  | ok u =>
    rw [hresult] at hend
    exact .inl ⟨_, rfl, hend, hticks⟩
  | error e =>
    rw [hresult] at hend
    exact .inr ⟨_, _, rfl, hend, hticks⟩

lemma request_eq_ok {action : StateM σ (Except DiskError Unit)}
    {whole : Disk → Except DiskError Disk} {partly : Disk → Disk → Prop} {message : String}
    (h : Acts action whole partly) (hrun : outcome (request message action) s = (.ok (), s')) :
    whole (disk s) = .ok (disk s') ∧ ticks s' = ticks s := by
  rcases request_cases h message s with ⟨s₁, hrun', hwhole, hticks⟩ | ⟨f, s₁, hrun', -⟩
  · rw [hrun'] at hrun
    cases hrun
    exact ⟨hwhole, hticks⟩
  · rw [hrun'] at hrun
    cases hrun

variable [Host (StateM σ)] [Faithful σ] (p : Path) (what message : String)

@[simp] lemma outcome_isFile (s : σ) :
    outcome (isFile p) s = (.ok (decide ((disk s).kind? p = some .file)), s) := by
  rw [isFile, outcome_bind, outcome_ask, Faithful.kind?]
  rfl

@[simp] lemma outcome_exists? (s : σ) :
    outcome (exists? p) s = (.ok ((disk s).kind? p).isSome, s) := by
  rw [exists?, outcome_bind, outcome_ask, Faithful.kind?]
  rfl

lemma idle_isFile : Idle (σ := σ) (isFile p) := fun s => by rw [outcome_isFile]

lemma idle_read : Idle (σ := σ) (read what p) := .request (Faithful.looks_read p) _

lemma within_isFile : Within (σ := σ) ps (isFile p) := fun s => by
  rw [outcome_isFile]
  exact .refl ps s

lemma within_exists? : Within (σ := σ) ps (exists? p) := fun s => by
  rw [outcome_exists?]
  exact .refl ps s

lemma within_isFolder : Within (σ := σ) ps (isFolder p) :=
  .bind (.ask fun s => by rw [Faithful.kind?]; exact .refl ps s) fun _ => .pure ps _

/-- What has been read is what the disk holds, and reading does not change it. -/
lemma read_eq_ok {bytes : List UInt8} (h : outcome (read what p) s = (.ok bytes, s')) :
    (disk s).read p = .ok bytes ∧ disk s' = disk s ∧ Leads [] s s' := by
  rw [read, outcome_request, Prod.mk.injEq] at h
  obtain ⟨hresult, rfl⟩ := h
  refine ⟨?_, (Faithful.looks_read p s).1, .of_looks (Faithful.looks_read p) [] s⟩
  cases hread : ((Host.read p : StateM σ _).run s).1 with
  | ok found =>
    rw [hread] at hresult
    cases hresult
    exact Faithful.read p s _ hread
  | error e =>
    rw [hread] at hresult
    cases hresult

lemma within_read : Within (σ := σ) ps (read what p) :=
  .request (fun s => .of_looks (Faithful.looks_read p) ps s) _

lemma within_readText : Within (σ := σ) ps (readText what p) := by
  refine .bind (within_read p what) fun bytes => ?_
  split
  · exact .pure ps _
  · exact .fail ps _

lemma leads_write (bytes : List UInt8) (s : σ) :
    Leads [p] s ((Host.write (m := StateM σ) p bytes).run s).2 :=
  .of_acts (Faithful.write p bytes) (fun _ _ h => (Disk.write_eq_ok h).touches)
    (fun _ _ ⟨_, h⟩ => (Disk.write_eq_ok h).touches) s

lemma leads_append (bytes : List UInt8) (s : σ) :
    Leads [p] s ((Host.append (m := StateM σ) p bytes).run s).2 :=
  .of_acts (Faithful.append p bytes) (fun _ _ h => (Disk.append_eq_ok h).touches)
    (fun _ _ ⟨_, h⟩ => (Disk.append_eq_ok h).touches) s

lemma leads_copy (source target : Path) (s : σ) :
    Leads [target] s ((Host.copy (m := StateM σ) source target).run s).2 := by
  have hcopy : ∀ d d', Disk.copy d source target = .ok d' → d.Touches [target] d' :=
    fun d d' h => by
      obtain ⟨n, -, hstored⟩ := Disk.copy_eq_ok h
      exact hstored.touches
  refine .of_acts (Faithful.copy source target) hcopy ?_ s
  rintro d d' ⟨d₁, part, hwhole, hpart⟩
  exact (hcopy d d₁ hwhole).trans (Disk.write_eq_ok hpart).touches

lemma leads_createFolder (s : σ) :
    Leads [] s ((Host.createFolder (m := StateM σ) p).run s).2 :=
  .of_acts (Faithful.createFolder p) (fun _ _ => Disk.touches_of_createFolder)
    (fun _ _ => False.elim) s

lemma within_write (bytes : List UInt8) : Within (σ := σ) [p] (write what p bytes) :=
  .request (leads_write p bytes) _

lemma within_create : Within (σ := σ) [] (createFolders.create message p) := by
  refine .bind (.ask (leads_createFolder p)) fun result => ?_
  split
  · exact .pure [] _
  · exact .bind (within_isFolder p) fun _ => .ite (.fail [] _) (.pure [] _)

lemma within_createFolders_go (fuel : Nat) :
    Within (σ := σ) [] (createFolders.go message fuel p) := by
  induction fuel generalizing p with
  | zero => exact .fail [] _
  | succ fuel ih =>
    rw [createFolders.go]
    refine .ite (.pure [] _) (.bind (.ask (leads_createFolder p)) fun result => ?_)
    split
    · exact .pure [] _
    · split
      · exact .fail [] _
      · exact .bind (ih _) fun _ => within_create p message
    · exact .bind (within_isFolder p) fun _ => .ite (.fail [] _) (.pure [] _)

theorem within_createFolders : Within (σ := σ) [] (createFolders message p) :=
  within_createFolders_go p message _

lemma within_createFolderOf : Within (σ := σ) [] (createFolderOf p) := by
  rw [createFolderOf]
  split
  · exact within_createFolders _ _
  · exact .pure [] _

/-- On the machine that never refuses, what the disk holds can be read. -/
lemma outcome_read {c : Machine} {bytes : List UInt8} (h : (disk c).read p = .ok bytes) :
    outcome (read what p) c = (.ok bytes, c) := by
  have hhost : (Host.read (m := StateM Machine) p).run c = (.ok bytes, c) := congrArg (·, c) h
  rw [read, outcome_request, hhost]
  rfl

end Task
end Retouch
