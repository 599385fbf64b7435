import Retouch.Disk
import Retouch.Proofs.Text.Pieces

/-! Where a path leads. The place depends on nothing but the names on the way; the disk only decides
whether the way can be gone. So a way that can be gone stays open as long as folders stay folders. -/
namespace Retouch

/-- A text that is one segment of a path, and leads down. -/
structure IsName (name : String) : Prop where
  single : '/' ∉ name.toList
  busy : Path.isIdle name = false
  down : (name == "..") = false

namespace Path

/-- The last segment of a path below another one is the name that was put there. -/
lemma segments_join (p : Path) {name : String} (h : IsName name) :
    ∃ above, (p.join ⟨name⟩).segments = above ++ [name] := by
  have hsingle : ∀ c ∈ name.toList, (c == '/') = false := fun c hc => by
    rw [beq_eq_false_iff_ne]
    rintro rfl
    exact h.single hc
  have hsplit : Text.splitAll name.toList (· == '/') = [name.toList] :=
    Text.splitAll_of_not_mem hsingle
  have hbelow : ∀ s : Text, ∃ above : List String,
      (Text.splitAll (s ++ '/' :: name.toList) (· == '/')).map String.ofList = above ++ [name] :=
    fun s => ⟨(Text.splitAll s (· == '/')).map String.ofList, by
      rw [Text.splitAll_append (by decide), hsplit]
      simp⟩
  have habsolute : (Path.mk name).isAbsolute = false := by
    rw [isAbsolute, decide_eq_false_iff_not]
    exact fun heq => h.single (List.mem_of_mem_head? heq)
  rw [join, habsolute, if_neg Bool.false_ne_true]
  split
  · next hend =>
    rcases Bool.or_eq_true_iff.1 hend with hempty | hslash
    · refine ⟨[], ?_⟩
      have hp : p.text = "" := String.isEmpty_iff.1 hempty
      simp [segments, hp, hsplit]
    · obtain ⟨s, hs⟩ := List.getLast?_eq_some_iff.1 (of_decide_eq_true hslash)
      obtain ⟨above, habove⟩ := hbelow s
      refine ⟨above, ?_⟩
      rw [segments, String.toList_append, hs, ← habove]
      simp
  · obtain ⟨above, habove⟩ := hbelow p.text.toList
    refine ⟨above, ?_⟩
    rw [segments, ← habove]
    simp

end Path

namespace Disk

/-- The place to which a name leads from another place. -/
def Place.enter (place : Place) (name : String) : Place :=
  if Path.isIdle name then place else if name == ".." then place.dropLast else place ++ [name]

/-- The place to which a path leads, if there are folders all the way. -/
def destination (d : Disk) (p : Path) : Place :=
  p.segments.foldl Place.enter (if p.isAbsolute then [] else d.base)

/-- The path is a name of the file with a number, if its way can be gone. -/
def Points (d : Disk) (p : Path) (n : Nat) : Prop := d.entry? (d.destination p) = some (.file n)

namespace Points

variable {d : Disk} {p q : Path} {m n : Nat}

lemma eq (h : d.Points p m) (h' : d.Points p n) : m = n := by
  rw [Points, h] at h'
  cases h'
  rfl

lemma not_of_none (h : d.entry? (d.destination p) = none) (n : Nat) : ¬d.Points p n := by
  rw [Points, h]
  nofun

lemma of_destination (h : d.Points p n) (heq : d.destination p = d.destination q) :
    d.Points q n := by
  rwa [Points, ← heq]

end Points

def IsFolder (d : Disk) (place : Place) : Prop := ∃ mode, d.entry? place = some (.folder mode)

lemma destination_congr {d d' : Disk} (h : d'.base = d.base) (p : Path) :
    d'.destination p = d.destination p := by
  rw [destination, destination, h]

lemma destination_join (d : Disk) (p : Path) {name : String} (h : IsName name) :
    (d.destination (p.join ⟨name⟩)).getLast? = some name := by
  obtain ⟨above, habove⟩ := p.segments_join h
  rw [destination, habove, List.foldl_append]
  simp [Place.enter, h.busy, h.down]

lemma destination_join_ne (d : Disk) (p q : Path) {name other : String} (h : IsName name)
    (h' : IsName other) (hne : name ≠ other) :
    d.destination (p.join ⟨name⟩) ≠ d.destination (q.join ⟨other⟩) := by
  intro heq
  have hlast := d.destination_join p h
  rw [heq, d.destination_join q h'] at hlast
  exact hne (Option.some.inj hlast).symm

lemma follow_eq_ok {d : Disk} {place q : Place} {names : List String}
    (h : d.follow place names = .ok q) : names.foldl Place.enter place = q := by
  induction names generalizing place with
  | nil => exact Except.ok.inj h
  | cons name names ih =>
    rw [follow] at h
    split at h
    · cases h
    · cases h
    · exact ih h

lemma locate_eq_ok {d : Disk} {p : Path} {q : Place} (h : d.locate p = .ok q) :
    q = d.destination p := by
  rw [locate] at h
  split at h
  · cases h
  · exact (follow_eq_ok h).symm

lemma follow_of_folders {d d' : Disk} (hf : ∀ q, d.IsFolder q → d'.IsFolder q) {place q : Place}
    {names : List String} (h : d.follow place names = .ok q) : d'.follow place names = .ok q := by
  induction names generalizing place with
  | nil => exact h
  | cons name names ih =>
    rw [follow] at h ⊢
    split at h
    · cases h
    · cases h
    · next mode hfolder =>
      obtain ⟨mode', hfolder'⟩ := hf _ ⟨mode, hfolder⟩
      rw [hfolder']
      exact ih h

lemma locate_of_folders {d d' : Disk} (hb : d'.base = d.base)
    (hf : ∀ q, d.IsFolder q → d'.IsFolder q) {p : Path} {q : Place} (h : d.locate p = .ok q) :
    d'.locate p = .ok q := by
  rw [locate] at h ⊢
  split at h
  · cases h
  · next hempty =>
    rw [if_neg hempty, hb]
    exact follow_of_folders hf h

/-- A path leads to a file. -/
lemma fileNumber_eq_ok {d : Disk} {p : Path} {n : Nat} :
    d.fileNumber p = .ok n ↔
      d.locate p = .ok (d.destination p) ∧ d.Points p n := by
  constructor
  · intro h
    cases hl : d.locate p with
    | error e => simp [fileNumber, find, hl, bind, Except.bind] at h
    | ok q =>
      obtain rfl := locate_eq_ok hl
      refine ⟨rfl, ?_⟩
      cases he : d.entry? (d.destination p) with
      | none => simp [fileNumber, find, hl, he, bind, Except.bind] at h
      | some e =>
        cases e with
        | folder mode => simp [fileNumber, find, hl, he, bind, Except.bind, pure, Except.pure] at h
        | file m =>
          simp [fileNumber, find, hl, he, bind, Except.bind, pure, Except.pure] at h
          rw [Points, he, h]
  · rintro ⟨hl, he⟩
    rw [Points] at he
    simp [fileNumber, find, hl, he, bind, Except.bind, pure, Except.pure]

lemma read_eq_ok {d : Disk} {p : Path} {bytes : List UInt8} :
    d.read p = .ok bytes ↔ ∃ n, d.fileNumber p = .ok n ∧ (d.file n).bytes = bytes := by
  cases h : d.fileNumber p with
  | error e => simp [read, h, bind, Except.bind]
  | ok n => simp [read, h, bind, Except.bind, pure, Except.pure]

lemma mode?_of_fileNumber {d : Disk} {p : Path} {n : Nat} (h : d.fileNumber p = .ok n) :
    d.mode? p = some (d.file n).mode := by
  obtain ⟨hl, he⟩ := fileNumber_eq_ok.1 h
  rw [Points] at he
  simp [mode?, find, hl, he, bind, Except.bind, pure, Except.pure]

lemma kind?_eq_file {d : Disk} {p : Path} :
    d.kind? p = some .file ↔ ∃ n, d.fileNumber p = .ok n := by
  cases h : d.find p with
  | error e => simp [kind?, fileNumber, h, bind, Except.bind]
  | ok found =>
    obtain ⟨place, entry⟩ := found
    cases entry <;> simp [kind?, fileNumber, h, bind, Except.bind, pure, Except.pure]

end Disk
end Retouch
