import Retouch.Installation
import Retouch.Proofs.Machine.Footprint

/-! Replacing a file. The new bytes go to a file of a name that is not in use, and the target changes at
the very end, all at once: either it is a new file with the new bytes, or it is as it was. -/
namespace Retouch.Installation

open HasDisk Disk Retouch.Task

/-- The name under which a fresh file is made. -/
def freshName (k : Nat) : String := ".minitweak-tmp-" ++ k.repr

/-- The path of the fresh file beside a path. -/
def freshPath (p : Path) (k : Nat) : Path := (p.folder?.getD ".").join ⟨freshName k⟩

lemma toList_freshName (k : Nat) :
    (freshName k).toList = ".minitweak-tmp-".toList ++ Nat.toDigits 10 k := by
  change (".minitweak-tmp-" ++ k.repr).toList = _
  rw [String.toList_append, Nat.toList_repr]

lemma isName_freshName (k : Nat) : IsName (freshName k) := by
  have hne (t : Text) (ht : t.length < 15) : (freshName k).toList ≠ t := by
    rintro rfl
    rw [toList_freshName, List.length_append] at ht
    exact absurd ht (by simp)
  have hne' (name : String) (h : name.toList.length < 15) : (freshName k == name) = false := by
    rw [beq_eq_false_iff_ne]
    rintro heq
    exact hne name.toList h (by rw [heq])
  refine ⟨?_, ?_, hne' ".." (by decide)⟩
  · rw [toList_freshName, List.mem_append, not_or]
    refine ⟨by decide, fun hmem => ?_⟩
    exact absurd (Nat.isDigit_of_mem_toDigits (by decide) (by decide) hmem) (by decide)
  · rw [Path.isIdle, hne' "." (by decide), Bool.or_false, ← Bool.not_eq_true]
    intro hempty
    exact hne [] (by decide) (by rw [String.isEmpty_iff.1 hempty]; rfl)

section Parts

variable {m : Type → Type} [Monad m] [Host m]

/-- Makes a file with some bytes, and with the permissions that are given. -/
def makeFile (p : Path) (mode : Option Mode) (bytes : List UInt8) : Task m Unit := do
  request ("creating temp file " ++ p.text) (Host.write p [])
  request ("writing temp file " ++ p.text) (Host.append p bytes)
  request ("syncing temp file " ++ p.text) (Host.sync p)
  match mode with
  | none => return
  | some mode => request ("copying permissions to " ++ p.text) (Host.setMode p mode)

/-- Moves a file to the place of another one; if it cannot be moved, it is removed. -/
def takeOver (source target : Path) : Task m Unit := do
  match ← ask (Host.rename source target) with
  | .ok () => return
  | .error e =>
    let _ ← ask (Host.remove source)
    fail ⟨["replacing " ++ target.text], some (.disk e)⟩

end Parts

variable {σ : Type} [HasDisk σ] [Host (StateM σ)] [Faithful σ] {s s' : σ} {p q : Path}

/-- No file has the fresh name that comes next. -/
def Vacant (p : Path) (s : σ) : Prop :=
  ∀ n, ¬(disk s).Points (freshPath p (ticks s)) n

lemma outcome_replaceFile (p : Path) (bytes : List UInt8) (s : σ) :
    ∃ s₁, disk s₁ = disk s ∧ ticks s < ticks s₁ ∧ outcome (replaceFile p bytes) s =
      outcome (makeFile (freshPath p (ticks s)) ((disk s).mode? p) bytes >>= fun _ =>
        takeOver (freshPath p (ticks s)) p) s₁ := by
  refine ⟨_, Faithful.disk_fresh s, Faithful.ticks_fresh s, ?_⟩
  have hfresh : outcome (ask (Host.fresh (m := StateM σ))) s =
      (.ok (ticks s).repr, ((Host.fresh (m := StateM σ)).run s).2) := by
    rw [outcome_ask, Faithful.fresh]
  have hmode : outcome (ask (Host.mode? (m := StateM σ) p)) s = (.ok ((disk s).mode? p), s) := by
    rw [outcome_ask, Faithful.mode?]
  rw [replaceFile, outcome_bind_of_ok hmode, outcome_bind_of_ok hfresh]
  simp only [makeFile, bind_assoc]
  cases (disk s).mode? p with
  | none => rfl
  | some mode => rfl

/-! ## Making a file -/

/-- From a state on, a task stores a file under a path, or it fails and has touched nothing else. -/
def Makes (t : Task (StateM σ) Unit) (p : Path) (f : File) (s : σ) : Prop :=
  match outcome t s with
  | (.ok (), s') => (disk s).Stored p f (disk s') ∧ ticks s' = ticks s
  | (.error _, s') => (disk s).Touches [p] (disk s')

lemma makes_create (hvacant : ∀ n, ¬(disk s).Points p n) (message : String) :
    Makes (request message (Host.write p [])) p ⟨[], newFileMode⟩ s := by
  unfold Makes
  rcases request_cases (Faithful.write (σ := σ) p []) message s with
    ⟨s₁, hrun, hwrite, hticks⟩ | ⟨f, s₁, hrun, hleft, -⟩
  · rw [hrun]
    have hstored := write_eq_ok hwrite
    have hnew : (disk s).fileAt ((disk s).destination p) = ⟨[], newFileMode⟩ := by
      rw [fileAt, (hstored.vacant hvacant).1]
    rw [hnew] at hstored
    exact ⟨hstored, hticks⟩
  · rw [hrun]
    rcases hleft with hsame | ⟨part, hpart⟩
    · dsimp only
      rw [hsame]
      exact .refl _ _
    · exact (write_eq_ok hpart).touches

omit [Host (StateM σ)] [Faithful σ] in
/-- The file may be given more of what it should be, by a request that does no more than that. -/
lemma Makes.request {t : Task (StateM σ) Unit} {f g : File} (h : Makes t p f s)
    {action : StateM σ (Except DiskError Unit)} {whole : Disk → Except DiskError Disk}
    {partly : Disk → Disk → Prop} (hacts : Acts action whole partly)
    (hwhole : ∀ d d', (disk s).Stored p f d → whole d = .ok d' → (disk s).Stored p g d')
    (hpartly : ∀ d d', (disk s).Stored p f d → partly d d' → (disk s).Touches [p] d') (message : String) :
    Makes (t >>= fun _ => Task.request message action) p g s := by
  unfold Makes at h ⊢
  rw [outcome_bind]
  split at h
  · next s₁ heq =>
    obtain ⟨hstored, hticks⟩ := h
    rw [heq]
    rcases request_cases hacts message s₁ with ⟨s₂, hrun, hdone, hticks₂⟩ | ⟨e, s₂, hrun, hleft, -⟩
    · dsimp only
      rw [hrun]
      exact ⟨hwhole _ _ hstored hdone, hticks₂.trans hticks⟩
    · dsimp only
      rw [hrun]
      rcases hleft with hsame | hpart
      · dsimp only
        rw [hsame]
        exact hstored.touches
      · exact hpartly _ _ hstored hpart
  · next e s₁ heq =>
    rw [heq]
    exact h

/-- A file is made with its bytes and permissions, or nothing but this file has been touched. -/
lemma makes_makeFile (hvacant : ∀ n, ¬(disk s).Points p n) (mode : Option Mode) (bytes : List UInt8) :
    Makes (makeFile p mode bytes) p ⟨bytes, mode.getD newFileMode⟩ s := by
  have hcreate := makes_create hvacant ("creating temp file " ++ p.text)
  have hfill := hcreate.request (Faithful.append p bytes) (fun _ _ hstored h => hstored.append h)
    (fun _ _ hstored ⟨_, h⟩ => (hstored.append h).touches) ("writing temp file " ++ p.text)
  have hsync := hfill.request (Faithful.sync p) (fun _ _ hstored h => Except.ok.inj h ▸ hstored)
    (fun _ _ _ => False.elim) ("syncing temp file " ++ p.text)
  unfold makeFile
  simp only [← bind_assoc]
  cases mode with
  | none =>
    dsimp only
    rw [bind_pure_unit]
    exact hsync
  | some mode =>
    exact hsync.request (Faithful.setMode p mode) (fun _ _ hstored h => hstored.setMode h)
      (fun _ _ _ => False.elim) ("copying permissions to " ++ p.text)

/-- A file that is made is stored under its path, whether or not there was one. -/
lemma makeFile_eq_ok {mode : Option Mode} {bytes : List UInt8}
    (h : outcome (makeFile p mode bytes) s = (.ok (), s')) :
    ∃ f, (disk s).Stored p f (disk s') := by
  obtain ⟨u, s₁, hcreate, h⟩ := bind_eq_ok.1 h
  obtain ⟨u, s₂, hfill, h⟩ := bind_eq_ok.1 h
  obtain ⟨u, s₃, hsync, h⟩ := bind_eq_ok.1 h
  have hcreated := write_eq_ok (request_eq_ok (Faithful.write p []) hcreate).1
  have hfilled := hcreated.append (request_eq_ok (Faithful.append p bytes) hfill).1
  rw [Except.ok.inj (request_eq_ok (Faithful.sync p) hsync).1] at hfilled
  cases mode with
  | none =>
    cases h
    exact ⟨_, hfilled⟩
  | some mode => exact ⟨_, hfilled.setMode (request_eq_ok (Faithful.setMode p mode) h).1⟩

/-! ## Taking over a place -/

lemma takeOver_eq_ok (h : outcome (takeOver p q) s = (.ok (), s')) :
    (disk s).rename p q = .ok (disk s') := by
  obtain ⟨-, hrename⟩ := Faithful.rename (σ := σ) p q s
  obtain ⟨result, s₁, hask, h⟩ := bind_eq_ok.1 h
  rw [outcome_ask, Prod.mk.injEq, Except.ok.injEq] at hask
  obtain ⟨rfl, rfl⟩ := hask
  cases hresult : ((Host.rename (m := StateM σ) p q).run s).1 with
  | ok u =>
    rw [hresult] at hrename h
    cases h
    exact hrename
  | error e =>
    rw [hresult] at h
    obtain ⟨_, s₂, -, h⟩ := bind_eq_ok.1 h
    cases h

/-- A new file takes the place over, or it is gone again. -/
lemma takeOver_cases {d : Disk} {f : File} (hstored : d.Stored p f (disk s))
    (hvacant : ∀ n, ¬d.Points p n) (q : Path) :
    match outcome (takeOver p q) s with
    | (.ok (), s') => d.Replaced q f (disk s') ∧ ticks s' = ticks s
    | (.error _, s') => d.Touches [p] (disk s') := by
  obtain ⟨hticks, hrename⟩ := Faithful.rename (σ := σ) p q s
  rw [takeOver, outcome_bind, outcome_ask]
  cases hresult : ((Host.rename (m := StateM σ) p q).run s).1 with
  | ok u =>
    rw [hresult] at hrename
    exact ⟨hstored.rename hvacant hrename, hticks⟩
  | error e =>
    rw [hresult] at hrename
    have hsame := hrename.resolve_right id
    obtain ⟨-, hremove⟩ := Faithful.remove (σ := σ) p
      ((Host.rename (m := StateM σ) p q).run s).2
    change d.Touches [p] (disk ((Host.remove (m := StateM σ) p).run
      ((Host.rename (m := StateM σ) p q).run s).2).2)
    split at hremove
    · rw [hsame] at hremove
      exact hstored.remove hvacant hremove
    · rw [hremove.resolve_right id, hsame]
      exact hstored.touches

/-- Whatever happens, a file is replaced as a whole, or it stays. -/
theorem replaceFile_cases (hvacant : Vacant p s) (bytes : List UInt8) :
    match outcome (replaceFile p bytes) s with
    | (.ok (), s') =>
      (disk s).Replaced p ⟨bytes, ((disk s).mode? p).getD newFileMode⟩ (disk s') ∧
        ticks s < ticks s'
    | (.error _, s') => (disk s).Touches [freshPath p (ticks s)] (disk s') := by
  obtain ⟨s₁, hdisk, hticks, hrun⟩ := outcome_replaceFile p bytes s
  rw [hrun, outcome_bind]
  have hmade := makes_makeFile (s := s₁) (p := freshPath p (ticks s)) (by rwa [hdisk])
    ((disk s).mode? p) bytes
  rw [Makes, hdisk] at hmade
  split at hmade
  · next s₂ heq =>
    rw [heq]
    obtain ⟨hstored, hticks₂⟩ := hmade
    have htaken := takeOver_cases hstored hvacant p
    dsimp only
    split at htaken
    · next s₃ heq' =>
      rw [heq']
      exact ⟨htaken.1, by omega⟩
    · next f s₃ heq' =>
      rw [heq']
      exact htaken
  · next f s₂ heq =>
    rw [heq]
    exact hmade

end Retouch.Installation
