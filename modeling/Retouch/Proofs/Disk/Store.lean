import Retouch.Proofs.Attempt
import Retouch.Proofs.Disk.Place
import Retouch.Proofs.SortedMap

/-! What a change does to the names and files of a disk. Writing, adding and copying all put a file at
the place of a path: one that is there keeps its number, and a new one has a number without names. -/
namespace Retouch.Disk

/-- Some name leads to the file with a number. -/
def Named (d : Disk) (n : Nat) : Prop := ∃ q, d.entry? q = some (.file n)

/-- The number of the file at a place, or of the one that would be made there. -/
def numberAt (d : Disk) (place : Place) : Nat :=
  match d.entry? place with
  | some (.file n) => n
  | _ => d.unusedNumber

/-- The file at a place; an empty one, if there is none. -/
def fileAt (d : Disk) (place : Place) : File :=
  match d.entry? place with
  | some (.file n) => d.file n
  | _ => ⟨[], newFileMode⟩

def store (d : Disk) (place : Place) (f : File) : Disk :=
  (d.setEntry place (.file (d.numberAt place))).setFile (d.numberAt place) f

/-- A file gives up one place for another. -/
def move (d : Disk) (old new : Place) (n : Nat) : Disk := (d.unname old).setEntry new (.file n)

variable {d d' : Disk} {p : Path} {place q : Place} {n m : Nat}

@[simp] lemma entry?_nil (d : Disk) : d.entry? [] = some (.folder newFolderMode) := rfl

@[simp] lemma entry?_setFile (d : Disk) (n : Nat) (f : File) (q : Place) :
    entry? (d.setFile n f) q = d.entry? q := rfl

@[simp] lemma file_setEntry (d : Disk) (place : Place) (e : Entry) (n : Nat) :
    (d.setEntry place e).file n = d.file n := rfl

@[simp] lemma file_unname (d : Disk) (place : Place) (n : Nat) :
    (d.unname place).file n = d.file n := rfl

@[simp] lemma file_move (d : Disk) (old new : Place) (n m : Nat) :
    (d.move old new n).file m = d.file m := rfl

@[simp] lemma file_setFile (d : Disk) (n m : Nat) (f : File) :
    (d.setFile n f).file m = if m = n then f else d.file m := by
  rw [file, setFile, SortedMap.get?_insert]
  split <;> rfl

@[simp] lemma setFile_setFile (d : Disk) (n : Nat) (f g : File) :
    (d.setFile n f).setFile n g = d.setFile n g := by
  simp [setFile]

lemma entry?_of_ne_nil (hq : q ≠ []) : d.entry? q = d.entries.get? q := by
  unfold entry?
  simp [hq]

lemma entry?_setEntry (hplace : place ≠ []) (e : Entry) (q : Place) :
    entry? (d.setEntry place e) q = if q = place then some e else d.entry? q := by
  by_cases hq : q = []
  · subst hq
    simp [hplace.symm]
  · rw [entry?_of_ne_nil hq, entry?_of_ne_nil hq, setEntry, SortedMap.get?_insert]

lemma entry?_unname (hplace : place ≠ []) (q : Place) :
    entry? (d.unname place) q = if q = place then none else d.entry? q := by
  by_cases hq : q = []
  · subst hq
    simp [hplace.symm]
  · rw [entry?_of_ne_nil hq, entry?_of_ne_nil hq, unname, SortedMap.get?_erase]

lemma entry?_move {old new : Place} (hold : old ≠ []) (hnew : new ≠ []) (n : Nat) (q : Place) :
    entry? (d.move old new n) q =
      if q = new then some (.file n) else if q = old then none else d.entry? q := by
  rw [move, entry?_setEntry hnew, entry?_unname hold]

lemma ne_nil_of_not_isFolder (h : ¬d.IsFolder place) : place ≠ [] := by
  rintro rfl
  exact h ⟨_, d.entry?_nil⟩

lemma ne_nil_of_none (h : d.entry? place = none) : place ≠ [] := by
  rintro rfl
  cases h

lemma not_isFolder_of_file (h : d.entry? place = some (.file n)) : ¬d.IsFolder place := by
  rintro ⟨mode, hfolder⟩
  rw [h] at hfolder
  cases hfolder

/-- A name that leads to a file already is not changed by leading it there. -/
lemma setEntry_of_file (h : d.entry? place = some (.file n)) : d.setEntry place (.file n) = d := by
  rw [entry?_of_ne_nil (ne_nil_of_not_isFolder (not_isFolder_of_file h))] at h
  rw [setEntry, SortedMap.insert_of_get? h]

/-- Neither the name that goes nor the one that comes is a folder on the way. -/
lemma isFolder_move {old new : Place} (hold : ¬d.IsFolder old) (hnew : ¬d.IsFolder new)
    (h : d.IsFolder q) : (d.move old new n).IsFolder q := by
  obtain ⟨mode, hq⟩ := h
  refine ⟨mode, ?_⟩
  rw [entry?_move (ne_nil_of_not_isFolder hold) (ne_nil_of_not_isFolder hnew), if_neg, if_neg, hq]
  · rintro rfl
    exact hold ⟨mode, hq⟩
  · rintro rfl
    exact hnew ⟨mode, hq⟩

/-- A bound that never falls along a list, and exceeds each number as it passes it. -/
lemma le_foldl_and_lt {α : Type} {f : Nat → α → Nat} {a : α} (hle : ∀ k e, k ≤ f k e)
    (hlt : ∀ k, n < f k a) (entries : List α) (k : Nat) :
    k ≤ entries.foldl f k ∧ (a ∈ entries → n < entries.foldl f k) := by
  induction entries generalizing k with
  | nil => exact ⟨Nat.le_refl k, fun hin => absurd hin List.not_mem_nil⟩
  | cons e entries ih =>
    obtain ⟨hrest, hin⟩ := ih (f k e)
    refine ⟨Nat.le_trans (hle k e) hrest, fun hmem => ?_⟩
    rcases List.mem_cons.1 hmem with rfl | hmem
    · exact Nat.lt_of_lt_of_le (hlt k) hrest
    · exact hin hmem

lemma lt_unusedNumber (h : d.entry? q = some (.file n)) : n < d.unusedNumber := by
  have hmem : (q, Entry.file n) ∈ d.entries.entries := by
    have hq : q ≠ [] := ne_nil_of_not_isFolder (not_isFolder_of_file h)
    rw [entry?_of_ne_nil hq] at h
    exact SortedMap.mem_of_get? h
  refine (le_foldl_and_lt ?_ (fun k => ?_) d.entries.entries 0).2 hmem
  · rintro k ⟨q', mode | number⟩
    · exact Nat.le_refl k
    · exact Nat.le_max_left k (number + 1)
  · exact Nat.le_max_right k (n + 1)

lemma not_named_unusedNumber (d : Disk) : ¬d.Named d.unusedNumber := by
  rintro ⟨q, hq⟩
  exact Nat.lt_irrefl _ (lt_unusedNumber hq)

lemma numberAt_of_file (h : d.entry? place = some (.file n)) : d.numberAt place = n := by
  simp [numberAt, h]

lemma numberAt_of_none (h : d.entry? place = none) : d.numberAt place = d.unusedNumber := by
  simp [numberAt, h]

lemma entry?_store (hplace : place ≠ []) (f : File) (q : Place) :
    entry? (d.store place f) q =
      if q = place then some (.file (d.numberAt place)) else d.entry? q := by
  rw [store, entry?_setFile, entry?_setEntry hplace]

lemma file_store (d : Disk) (place : Place) (f : File) (n : Nat) :
    (d.store place f).file n = if n = d.numberAt place then f else d.file n := by
  rw [store, file_setFile, file_setEntry]

/-- Storing under a name: all that writing, adding and copying do to a disk. -/
structure Stored (d : Disk) (p : Path) (f : File) (d' : Disk) : Prop where
  located : d.locate p = .ok (d.destination p)
  free : ¬d.IsFolder (d.destination p)
  eq : d' = d.store (d.destination p) f

/-- A file that is opened for writing is the one at the place, and a new one is empty. -/
lemma openFile_eq_ok {mode : Mode} (h : d.openFile p mode = .ok (d', n)) :
    n = d.numberAt (d.destination p) ∧ (∀ f, Stored d p f (d'.setFile n f)) ∧
      (d'.file n).bytes = (d.fileAt (d.destination p)).bytes ∧
      (mode = newFileMode → (d'.file n).mode = (d.fileAt (d.destination p)).mode) ∧
      ∀ m, d.Named m → d'.file m = d.file m := by
  cases hl : d.locate p with
  | error e => simp [openFile, hl, bind, Except.bind] at h
  | ok place =>
    obtain rfl := locate_eq_ok hl
    cases he : d.entry? (d.destination p) with
    | none =>
      have hfree : ¬d.IsFolder (d.destination p) := by simp [IsFolder, he]
      simp only [openFile, hl, he, bind, Except.bind, pure, Except.pure, Except.ok.injEq,
        Prod.mk.injEq] at h
      obtain ⟨rfl, rfl⟩ := h
      refine ⟨(numberAt_of_none he).symm, fun f => ⟨hl, hfree, ?_⟩, ?_, ?_, ?_⟩
      · rw [setFile_setFile, store, numberAt_of_none he]
      · simp [fileAt, he]
      · intro hmode
        simp [fileAt, he, hmode]
      · rintro m ⟨q, hm⟩
        rw [file_setFile, if_neg (Nat.ne_of_lt (lt_unusedNumber hm)), file_setEntry]
    | some e =>
      cases e with
      | folder mode => simp [openFile, hl, he, bind, Except.bind] at h
      | file k =>
        simp only [openFile, hl, he, bind, Except.bind, pure, Except.pure, Except.ok.injEq,
          Prod.mk.injEq] at h
        obtain ⟨rfl, rfl⟩ := h
        refine ⟨(numberAt_of_file he).symm, fun f => ⟨hl, not_isFolder_of_file he, ?_⟩, ?_, ?_,
          fun m _ => rfl⟩
        · rw [store, numberAt_of_file he, setEntry_of_file he]
        · simp [fileAt, he]
        · intro _
          simp [fileAt, he]

/-- A file that is opened and then given bytes made of those it had. -/
lemma stored_of_openFile (f : List UInt8 → List UInt8)
    (h : (d.openFile p newFileMode >>= fun (d, n) =>
      return d.setFile n { d.file n with bytes := f (d.file n).bytes }) = .ok d') :
    Stored d p ⟨f (d.fileAt (d.destination p)).bytes, (d.fileAt (d.destination p)).mode⟩ d' := by
  obtain ⟨⟨d₁, n⟩, ho, h⟩ := Attempt.bind_eq_ok.1 h
  obtain ⟨-, hstored, hbytes, hmode, -⟩ := openFile_eq_ok ho
  cases h
  rw [← hmode rfl, ← hbytes]
  exact hstored _

theorem write_eq_ok {bytes : List UInt8} (h : d.write p bytes = .ok d') :
    Stored d p ⟨bytes, (d.fileAt (d.destination p)).mode⟩ d' :=
  stored_of_openFile (fun _ => bytes) h

theorem append_eq_ok {bytes : List UInt8} (h : d.append p bytes = .ok d') :
    Stored d p ⟨(d.fileAt (d.destination p)).bytes ++ bytes, (d.fileAt (d.destination p)).mode⟩
      d' :=
  stored_of_openFile (· ++ bytes) h

theorem copy_eq_ok {source target : Path} (h : d.copy source target = .ok d') :
    ∃ n, d.fileNumber source = .ok n ∧
      Stored d target ⟨if d.numberAt (d.destination target) = n then [] else (d.file n).bytes,
        (d.file n).mode⟩ d' := by
  cases hf : d.find source with
  | error e => simp [copy, hf, bind, Except.bind] at h
  | ok found =>
    obtain ⟨place, e⟩ := found
    cases e with
    | folder mode => simp [copy, hf, bind, Except.bind] at h
    | file n =>
      have hn : d.fileNumber source = .ok n := by
        simp [fileNumber, hf, bind, Except.bind, pure, Except.pure]
      cases ho : d.openFile target (d.file n).mode with
      | error e => simp [copy, hf, ho, bind, Except.bind] at h
      | ok opened =>
        obtain ⟨d₁, k⟩ := opened
        obtain ⟨hk, hstored, -, -, hfiles⟩ := openFile_eq_ok ho
        simp only [copy, hf, ho, bind, Except.bind, pure, Except.pure, Except.ok.injEq] at h
        rw [hfiles n ⟨_, (fileNumber_eq_ok.1 hn).2⟩, hk] at h
        refine ⟨n, hn, ?_⟩
        rw [← h, ← hk]
        exact hstored _

theorem createFolder_eq_ok (h : d.createFolder p = .ok d') :
    ∃ place, d.entry? place = none ∧ d' = d.setEntry place (.folder newFolderMode) := by
  cases hl : d.locate p.dropSlashes with
  | error e => simp [createFolder, hl, bind, Except.bind] at h
  | ok place =>
    cases he : d.entry? place with
    | some e => simp [createFolder, hl, he, bind, Except.bind] at h
    | none =>
      simp only [createFolder, hl, he, bind, Except.bind, pure, Except.pure, Except.ok.injEq] at h
      exact ⟨place, he, h.symm⟩

end Retouch.Disk
