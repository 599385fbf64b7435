import Retouch.Proofs.Disk.Store

/-! What a stretch of work leaves alone. Work that makes folders and writes files under some paths keeps
every name, gives new files numbers without names, and changes no file that those paths do not lead to. -/
namespace Retouch.Disk

/-- `d'` comes from `d` by making folders and writing files under the given paths. -/
structure Touches (ps : List Path) (d d' : Disk) : Prop where
  base : d'.base = d.base
  entries : ∀ q e, d.entry? q = some e → d'.entry? q = some e
  fresh : ∀ q n, d'.entry? q = some (.file n) →
    d.entry? q = some (.file n) ∨ (∃ p ∈ ps, q = d.destination p) ∧ ¬d.Named n
  contents : ∀ n, d.Named n → (∀ p ∈ ps, ¬d.Points p n) → d'.file n = d.file n

variable {d d₁ d₂ d' : Disk} {ps qs : List Path} {p q : Path} {n : Nat}

namespace Touches

@[simp] lemma refl (ps : List Path) (d : Disk) : Touches ps d d :=
  ⟨rfl, fun _ _ h => h, fun _ _ h => .inl h, fun _ _ _ => rfl⟩

lemma folders (h : Touches ps d d') (q : Place) (hq : d.IsFolder q) : d'.IsFolder q :=
  hq.imp fun _ => h.entries q _

lemma named (h : Touches ps d d') (hn : d.Named n) : d'.Named n :=
  hn.imp fun q => h.entries q _

lemma destination (h : Touches ps d d') (p : Path) : d'.destination p = d.destination p :=
  destination_congr h.base p

/-- A named file that the paths do not lead to is not led to later either. -/
lemma apart (h : Touches ps d d') (hn : d.Named n) (hp : ¬d.Points p n) : ¬d'.Points p n := by
  intro hp'
  rw [Points, h.destination] at hp'
  rcases h.fresh _ _ hp' with hold | ⟨-, hnew⟩
  · exact hp hold
  · exact hnew hn

lemma trans (h₁ : Touches ps d d₁) (h₂ : Touches ps d₁ d₂) : Touches ps d d₂ where
  base := h₂.base.trans h₁.base
  entries q e hq := h₂.entries q e (h₁.entries q e hq)
  fresh q n hq := by
    rcases h₂.fresh q n hq with hq | ⟨⟨p, hp, rfl⟩, hnew⟩
    · exact h₁.fresh q n hq
    · exact .inr ⟨⟨p, hp, h₁.destination p⟩, fun hn => hnew (h₁.named hn)⟩
  contents n hn hps := by
    have hps₁ : ∀ p ∈ ps, ¬d₁.Points p n := fun p hp => h₁.apart hn (hps p hp)
    rw [h₂.contents n (h₁.named hn) hps₁, h₁.contents n hn hps]

lemma mono (h : Touches ps d d') (hsub : ps ⊆ qs) : Touches qs d d' where
  base := h.base
  entries := h.entries
  fresh q n hq := (h.fresh q n hq).imp_right fun ⟨⟨p, hp, hplace⟩, hnew⟩ =>
    ⟨⟨p, hsub hp, hplace⟩, hnew⟩
  contents n hn hqs := h.contents n hn fun p hp => hqs p (hsub hp)

lemma points (h : Touches ps d d') (hp : d.Points p n) : d'.Points p n := by
  rw [Points, h.destination]
  exact h.entries _ _ hp

lemma fileNumber (h : Touches ps d d') (hp : d.fileNumber p = .ok n) :
    d'.fileNumber p = .ok n := by
  obtain ⟨hl, he⟩ := fileNumber_eq_ok.1 hp
  rw [fileNumber_eq_ok, h.destination]
  exact ⟨locate_of_folders h.base h.folders hl, h.points he⟩

/-- A file keeps its bytes, unless one of the paths leads to it. -/
theorem read (h : Touches ps d d') (hp : d.fileNumber p = .ok n)
    (hps : ∀ q ∈ ps, ¬d.Points q n) :
    d'.read p = .ok (d.file n).bytes := by
  refine read_eq_ok.2 ⟨n, h.fileNumber hp, ?_⟩
  rw [h.contents n ⟨_, (fileNumber_eq_ok.1 hp).2⟩ hps]

/-- Making folders leaves what is at a place as it is, and makes no file there. -/
lemma bytes_fileAt (h : Touches [] d d') (p : Path) :
    (d'.fileAt (d'.destination p)).bytes = (d.fileAt (d.destination p)).bytes := by
  rw [h.destination]
  cases hentry : d.entry? (d.destination p) with
  | some entry =>
    have hentry' := h.entries _ _ hentry
    cases entry with
    | folder mode => simp only [fileAt, hentry, hentry']
    | file n =>
      simp only [fileAt, hentry, hentry']
      rw [h.contents n ⟨_, hentry⟩ fun q hq => absurd hq List.not_mem_nil]
  | none =>
    have hnew (n : Nat) : d'.entry? (d.destination p) ≠ some (.file n) := by
      intro hentry'
      rcases h.fresh _ _ hentry' with hold | ⟨⟨q, hq, -⟩, -⟩
      · rw [hentry] at hold
        cases hold
      · exact List.not_mem_nil hq
    rcases hentry' : d'.entry? (d.destination p) with _ | mode | n
    · simp only [fileAt, hentry, hentry']
    · simp only [fileAt, hentry, hentry']
    · exact absurd hentry' (hnew n)

end Touches

namespace Stored

variable {f : File}

lemma entry_eq (h : Stored d p f d') (q : Place) :
    d'.entry? q = if q = d.destination p then some (.file (d.numberAt (d.destination p)))
      else d.entry? q := by
  rw [h.eq, entry?_store (ne_nil_of_not_isFolder h.free)]

lemma file (h : Stored d p f d') (n : Nat) :
    d'.file n = if n = d.numberAt (d.destination p) then f else d.file n := by
  rw [h.eq, file_store]

/-- The file at the place is an old one under its number, or it has a number without names. -/
lemma numberAt (h : Stored d p f d') :
    d.Points p (d.numberAt (d.destination p)) ∨
      d.entry? (d.destination p) = none ∧ ¬d.Named (d.numberAt (d.destination p)) := by
  cases he : d.entry? (d.destination p) with
  | none =>
    refine .inr ⟨rfl, ?_⟩
    rw [numberAt_of_none he]
    exact d.not_named_unusedNumber
  | some e =>
    cases e with
    | folder mode => exact absurd ⟨mode, he⟩ h.free
    | file n => exact .inl (by rw [Points, numberAt_of_file he, he])

theorem touches (h : Stored d p f d') : Touches [p] d d' where
  base := by rw [h.eq]; rfl
  entries q e hq := by
    rw [h.entry_eq]
    split
    · next heq =>
      subst heq
      cases e with
      | folder mode => exact absurd ⟨mode, hq⟩ h.free
      | file n => rw [numberAt_of_file hq]
    · exact hq
  fresh q n hq := by
    rw [h.entry_eq] at hq
    split at hq
    · next heq =>
      cases hq
      subst heq
      rcases h.numberAt with hold | ⟨-, hnew⟩
      · exact .inl hold
      · exact .inr ⟨⟨p, List.mem_cons_self, rfl⟩, hnew⟩
    · exact .inl hq
  contents n hn hp := by
    rw [h.file, if_neg]
    rintro rfl
    rcases h.numberAt with hold | ⟨-, hnew⟩
    · exact hp p List.mem_cons_self hold
    · exact hnew hn

lemma points_of_ne (h : Stored d p f d') (hne : d.destination q ≠ d.destination p) :
    d'.Points q n ↔ d.Points q n := by
  rw [Points, h.touches.destination, h.entry_eq, if_neg hne, Points]

lemma fileNumber (h : Stored d p f d') :
    d'.fileNumber p = .ok (d.numberAt (d.destination p)) := by
  rw [fileNumber_eq_ok, Points, h.touches.destination, h.entry_eq, if_pos rfl]
  exact ⟨locate_of_folders h.touches.base h.touches.folders h.located, rfl⟩

/-- What is stored under a path is read under it. -/
theorem read (h : Stored d p f d') : d'.read p = .ok f.bytes :=
  read_eq_ok.2 ⟨_, h.fileNumber, by rw [h.file, if_pos rfl]⟩

end Stored

theorem touches_of_createFolder (h : d.createFolder p = .ok d') : Touches [] d d' := by
  obtain ⟨place, hnone, rfl⟩ := createFolder_eq_ok h
  have hplace : place ≠ [] := ne_nil_of_none hnone
  refine ⟨rfl, ?_, ?_, fun n _ _ => rfl⟩
  · intro q e hq
    rw [entry?_setEntry hplace, if_neg, hq]
    rintro rfl
    rw [hnone] at hq
    cases hq
  · intro q n hq
    rw [entry?_setEntry hplace] at hq
    split at hq
    · cases hq
    · exact .inl hq

/-- Permissions are set on a file under all of its names. -/
lemma setMode_eq_ok {mode : Mode} (h : d.setMode p mode = .ok d') (hp : d.fileNumber p = .ok n) :
    d' = d.setFile n { d.file n with mode } := by
  obtain ⟨hl, he⟩ := fileNumber_eq_ok.1 hp
  rw [Points] at he
  simp only [setMode, find, hl, he, bind, Except.bind, pure, Except.pure, Except.ok.injEq] at h
  exact h.symm

lemma rename_eq_ok {old new : Path} (h : d.rename old new = .ok d')
    (hp : d.fileNumber old = .ok n) :
    d.locate new = .ok (d.destination new) ∧ ¬d.IsFolder (d.destination new) ∧
      (d.Points new n ∧ d' = d ∨
        ¬d.Points new n ∧ d' = d.move (d.destination old) (d.destination new) n) := by
  obtain ⟨hl, he⟩ := fileNumber_eq_ok.1 hp
  rw [Points] at he
  cases hl' : d.locate new with
  | error e => simp [rename, find, hl, he, hl', bind, Except.bind, pure, Except.pure] at h
  | ok place =>
    obtain rfl := locate_eq_ok hl'
    refine ⟨rfl, ?_⟩
    simp only [rename, find, hl, he, hl', bind, Except.bind, pure, Except.pure] at h
    split at h
    · cases h
    · next other hother =>
      refine ⟨fun hfolder => hfolder.elim hother, ?_⟩
      split at h
      · next hsame =>
        cases h
        exact .inl ⟨hsame, rfl⟩
      · next hne =>
        cases h
        exact .inr ⟨hne, rfl⟩

lemma remove_eq_ok (h : d.remove p = .ok d') :
    ¬d.IsFolder (d.destination p) ∧ d' = d.unname (d.destination p) := by
  cases hl : d.locate p with
  | error e => simp [remove, find, hl, bind, Except.bind] at h
  | ok place =>
    obtain rfl := locate_eq_ok hl
    cases he : d.entry? (d.destination p) with
    | none => simp [remove, find, hl, he, bind, Except.bind] at h
    | some e =>
      cases e with
      | folder mode => simp [remove, find, hl, he, bind, Except.bind, pure, Except.pure] at h
      | file n =>
        simp only [remove, find, hl, he, bind, Except.bind, pure, Except.pure,
          Except.ok.injEq] at h
        refine ⟨?_, h.symm⟩
        rintro ⟨mode, hmode⟩
        rw [he] at hmode
        cases hmode

/-- A new file takes over the place of a path. No other name has changed, and no other file. -/
structure Replaced (d : Disk) (p : Path) (f : File) (d' : Disk) : Prop where
  base : d'.base = d.base
  located : d'.locate p = .ok (d.destination p)
  free : ¬d.IsFolder (d.destination p)
  entries : ∀ q, q ≠ d.destination p → d'.entry? q = d.entry? q
  file : ∃ n, ¬d.Named n ∧ d'.entry? (d.destination p) = some (.file n) ∧ d'.file n = f ∧
    ∀ m, d.Named m → d'.file m = d.file m

namespace Replaced

variable {f : File}

lemma destination (h : Replaced d p f d') (q : Path) : d'.destination q = d.destination q :=
  destination_congr h.base q

lemma folders (h : Replaced d p f d') (q : Place) (hq : d.IsFolder q) : d'.IsFolder q := by
  obtain ⟨mode, hmode⟩ := hq
  refine ⟨mode, ?_⟩
  rw [h.entries q, hmode]
  rintro rfl
  exact h.free ⟨mode, hmode⟩

/-- No folder has been made for the file, so its way could be gone before. -/
lemma located_before (h : Replaced d p f d') : d.locate p = .ok (d.destination p) := by
  refine locate_of_folders h.base.symm (fun q hq => ?_) h.located
  obtain ⟨n, -, hentry, -⟩ := h.file
  have hne : q ≠ d.destination p := by
    rintro rfl
    exact not_isFolder_of_file hentry hq
  rwa [IsFolder, ← h.entries q hne]

theorem read (h : Replaced d p f d') : d'.read p = .ok f.bytes := by
  obtain ⟨n, -, hentry, hfile, -⟩ := h.file
  refine read_eq_ok.2 ⟨n, fileNumber_eq_ok.2 ?_, by rw [hfile]⟩
  rw [Points, h.destination]
  exact ⟨h.located, hentry⟩

lemma points_of_ne (h : Replaced d p f d') (hne : d.destination q ≠ d.destination p) :
    d'.Points q n ↔ d.Points q n := by
  rw [Points, h.destination, h.entries _ hne, Points]

/-- A path to another place leads to the same file as before. -/
lemma fileNumber (h : Replaced d p f d') (hne : d.destination q ≠ d.destination p)
    (hq : d.fileNumber q = .ok n) : d'.fileNumber q = .ok n := by
  obtain ⟨hl, he⟩ := fileNumber_eq_ok.1 hq
  rw [fileNumber_eq_ok, h.destination, h.points_of_ne hne]
  exact ⟨locate_of_folders h.base h.folders hl, he⟩

/-- The new file has no name but the one at its place. -/
lemma apart (h : Replaced d p f d') (hn : d'.Points p n)
    (hne : d.destination q ≠ d.destination p) : ¬d'.Points q n := by
  obtain ⟨k, hnew, hentry, -, -⟩ := h.file
  rw [Points, h.destination, hentry] at hn
  cases hn
  rw [h.points_of_ne hne]
  exact fun hq => hnew ⟨_, hq⟩

end Replaced

namespace Stored

variable {f : File}

lemma fileAt (h : Stored d p f d₁) : d₁.fileAt (d₁.destination p) = f := by
  rw [h.touches.destination, Disk.fileAt, h.entry_eq, if_pos rfl]
  exact (h.file _).trans (if_pos rfl)

/-- Of two files stored under one path, the later one counts. -/
lemma again {g : File} (h : Stored d p f d₁) (hagain : Stored d₁ p g d₂) : Stored d p g d₂ := by
  have hentry : d₁.entry? (d.destination p) = some (.file (d.numberAt (d.destination p))) :=
    (h.entry_eq _).trans (if_pos rfl)
  refine ⟨h.located, h.free, ?_⟩
  rw [hagain.eq, h.touches.destination, store, numberAt_of_file hentry, setEntry_of_file hentry, h.eq, store, store,
    setFile_setFile]

lemma append {bytes : List UInt8} (h : Stored d p f d₁) (happend : d₁.append p bytes = .ok d₂) :
    Stored d p { f with bytes := f.bytes ++ bytes } d₂ := by
  have hagain := h.again (append_eq_ok happend)
  rwa [h.fileAt] at hagain

lemma setMode {mode : Mode} (h : Stored d p f d₁) (hset : d₁.setMode p mode = .ok d₂) :
    Stored d p { f with mode } d₂ := by
  refine ⟨h.located, h.free, ?_⟩
  rw [setMode_eq_ok hset h.fileNumber, h.file, if_pos rfl, h.eq, store, store, setFile_setFile]

variable (hvacant : ∀ n, ¬d.Points p n)
include hvacant

lemma vacant (h : Stored d p f d₁) :
    d.entry? (d.destination p) = none ∧ ¬d.Named (d.numberAt (d.destination p)) :=
  h.numberAt.resolve_left (hvacant _)

/-- A file that is made for the purpose takes over another place. -/
theorem rename (h : Stored d p f d₁) (hrename : d₁.rename p q = .ok d₂) : Replaced d q f d₂ := by
  obtain ⟨hnone, hnew⟩ := h.vacant hvacant
  obtain ⟨hl, hfree, hcases⟩ := rename_eq_ok hrename h.fileNumber
  simp only [Points, h.touches.destination] at hl hfree hcases
  have hfree' : ¬d.IsFolder (d.destination q) := fun hq => hfree (h.touches.folders _ hq)
  have hfile : ∀ m, d.Named m → d₁.file m = d.file m := fun m hm => by
    rw [h.file, if_neg]
    rintro rfl
    exact hnew hm
  rcases hcases with ⟨hentry, rfl⟩ | ⟨hentry, rfl⟩
  · have hsame : d.destination q = d.destination p := by
      rw [h.entry_eq] at hentry
      split at hentry
      · next heq => exact heq
      · exact absurd ⟨_, hentry⟩ hnew
    refine ⟨h.touches.base, hl, hfree', fun r hr => ?_, _, hnew, hentry, ?_, hfile⟩
    · rw [h.entry_eq, if_neg (hsame ▸ hr)]
    · rw [h.file, if_pos rfl]
  · have hne : d.destination p ≠ d.destination q := by
      rintro heq
      exact hentry (by rw [h.entry_eq, if_pos heq.symm])
    have hp : d.destination p ≠ [] := ne_nil_of_none hnone
    have hq : d.destination q ≠ [] := ne_nil_of_not_isFolder hfree
    have hmade : ¬d₁.IsFolder (d.destination p) :=
      not_isFolder_of_file ((h.entry_eq _).trans (if_pos rfl))
    refine ⟨h.touches.base, ?_, hfree', fun r hr => ?_, _, hnew, ?_, ?_, hfile⟩
    · exact locate_of_folders (by rfl) (fun r => isFolder_move hmade hfree) hl
    · rw [entry?_move hp hq, if_neg hr]
      split
      · next heq => rw [heq, hnone]
      · next hrp => rw [h.entry_eq, if_neg hrp]
    · rw [entry?_move hp hq, if_pos rfl]
    · rw [file_move, h.file, if_pos rfl]

/-- A file that is made and removed again leaves nothing but folders. -/
theorem remove (h : Stored d p f d₁) (hremove : d₁.remove p = .ok d₂) : Touches [p] d d₂ := by
  obtain ⟨hnone, -⟩ := h.vacant hvacant
  obtain ⟨-, rfl⟩ := remove_eq_ok hremove
  rw [h.touches.destination]
  have hp : d.destination p ≠ [] := ne_nil_of_none hnone
  have hother : ∀ r e, d.entry? r = some e →
      entry? (d₁.unname (d.destination p)) r = d₁.entry? r := by
    intro r e hr
    rw [entry?_unname hp, if_neg]
    rintro rfl
    rw [hnone] at hr
    cases hr
  refine ⟨h.touches.base, ?_, ?_, h.touches.contents⟩
  · intro r e hr
    rw [hother r _ hr, h.touches.entries r e hr]
  · intro r n hr
    rw [entry?_unname hp] at hr
    split at hr
    · cases hr
    · exact h.touches.fresh r n hr

end Stored

end Retouch.Disk
