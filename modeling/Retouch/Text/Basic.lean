/-! Text as a list of characters, addressed by byte offsets of its UTF-8 form.
Cutting is checked: an offset past the end or inside a character yields nothing. -/
namespace Retouch

abbrev Text := List Char

/-- A half-open range of byte offsets. -/
structure Span where
  start : Nat
  stop : Nat
  deriving DecidableEq, Repr

def Span.shift (s : Span) (offset : Nat) : Span := ⟨offset + s.start, offset + s.stop⟩

/-- Offset of the last byte, if there is one. -/
def Span.last? (s : Span) : Option Nat := if s.start < s.stop then some (s.stop - 1) else none

namespace Text

/-- Length in bytes. -/
def size (t : Text) : Nat := t.foldl (fun n c => n + c.utf8Size) 0

theorem foldl_utf8Size (n : Nat) (t : Text) :
    t.foldl (fun n c => n + c.utf8Size) n = n + size t := by
  induction t generalizing n with
  | nil => rfl
  | cons c t ih =>
    simp only [size, List.foldl_cons]
    rw [ih, ih (0 + c.utf8Size)]
    omega

@[simp] theorem size_nil : size [] = 0 := rfl

@[simp] theorem size_cons (c : Char) (t : Text) : size (c :: t) = c.utf8Size + size t := by
  rw [size, List.foldl_cons, foldl_utf8Size, Nat.zero_add]

@[simp] theorem size_append (s t : Text) : size (s ++ t) = size s + size t := by
  induction s with
  | nil => simp
  | cons c s ih => simp only [List.cons_append, size_cons, ih, Nat.add_assoc]

/-- The UTF-8 form. -/
def bytes (t : Text) : List UInt8 := t.flatMap String.utf8EncodeChar

@[simp] theorem bytes_nil : bytes [] = [] := rfl

@[simp] theorem bytes_append (s t : Text) : bytes (s ++ t) = bytes s ++ bytes t := by
  simp [bytes]

@[simp] theorem length_bytes (t : Text) : (bytes t).length = size t := by
  induction t with
  | nil => rfl
  | cons c t ih => simp_all [bytes]

def cutFrom (before : Text) : Text → Nat → Option (Text × Text)
  | t, 0 => some (before.reverse, t)
  | [], _ + 1 => none
  | c :: t, n + 1 =>
    if c.utf8Size ≤ n + 1 then cutFrom (c :: before) t (n + 1 - c.utf8Size) else none

/-- The text before and after a byte offset. -/
def cut? (t : Text) (offset : Nat) : Option (Text × Text) := cutFrom [] t offset

theorem cutFrom_eq_some {before t a b : Text} {n : Nat} :
    cutFrom before t n = some (a, b) ↔ ∃ m, a = before.reverse ++ m ∧ t = m ++ b ∧ size m = n := by
  induction t generalizing before n with
  | nil =>
    cases n with
    | zero =>
      constructor
      · intro h
        simp only [cutFrom, Option.some.injEq, Prod.mk.injEq] at h
        exact ⟨[], by simp [h.1, ← h.2]⟩
      · rintro ⟨m, rfl, ht, -⟩
        simp_all [cutFrom]
    | succ n =>
      simp only [cutFrom, reduceCtorEq, false_iff, not_exists, not_and]
      rintro m - ht
      simp_all
  | cons c t ih =>
    have hc := c.utf8Size_pos
    cases n with
    | zero =>
      constructor
      · intro h
        simp only [cutFrom, Option.some.injEq, Prod.mk.injEq] at h
        exact ⟨[], by simp [h.1, h.2]⟩
      · rintro ⟨m, rfl, ht, hm⟩
        cases m with
        | nil => simp_all [cutFrom]
        | cons d m => have := d.utf8Size_pos; simp at hm; omega
    | succ n =>
      by_cases hle : c.utf8Size ≤ n + 1
      · rw [cutFrom, if_pos hle, ih]
        constructor
        · rintro ⟨m, rfl, rfl, hm⟩
          exact ⟨c :: m, by simp, by simp, by simp; omega⟩
        · rintro ⟨m, rfl, ht, hm⟩
          cases m with
          | nil => simp at hm
          | cons d m =>
            obtain ⟨rfl, rfl⟩ : c = d ∧ t = m ++ b := by simpa using ht
            exact ⟨m, by simp, rfl, by simp at hm; omega⟩
      · rw [cutFrom, if_neg hle]
        constructor
        · nofun
        · rintro ⟨m, rfl, ht, hm⟩
          cases m with
          | nil => simp at hm
          | cons d m =>
            obtain ⟨rfl, -⟩ : c = d ∧ t = m ++ b := by simpa using ht
            simp at hm; omega

theorem cut?_eq_some {t a b : Text} {n : Nat} : cut? t n = some (a, b) ↔ t = a ++ b ∧ size a = n := by
  rw [cut?, cutFrom_eq_some]
  constructor
  · rintro ⟨m, rfl, h⟩; simpa using h
  · rintro h; exact ⟨a, by simp, h⟩

/-- The text between two byte offsets. -/
def slice? (t : Text) (start stop : Nat) : Option Text :=
  match cut? t start with
  | none => none
  | some (_, rest) =>
    if stop < start then none else (cut? rest (stop - start)).map (·.1)

theorem slice?_eq_some {t m : Text} {start stop : Nat} :
    slice? t start stop = some m ↔
      ∃ a b, t = a ++ m ++ b ∧ size a = start ∧ size a + size m = stop := by
  constructor
  · intro h
    unfold slice? at h
    split at h
    · simp at h
    · next _ a r ha =>
      obtain ⟨rfl, hsize⟩ := cut?_eq_some.1 ha
      split at h
      · simp at h
      · obtain ⟨⟨m', b⟩, hm, rfl⟩ := Option.map_eq_some_iff.1 h
        obtain ⟨rfl, hm⟩ := cut?_eq_some.1 hm
        exact ⟨a, b, by simp, hsize, by simp only; omega⟩
  · rintro ⟨a, b, rfl, rfl, rfl⟩
    have h₁ : cut? (a ++ m ++ b) (size a) = some (a, m ++ b) := cut?_eq_some.2 ⟨by simp, rfl⟩
    have h₂ : cut? (m ++ b) (size m) = some (m, b) := cut?_eq_some.2 ⟨rfl, rfl⟩
    have h₃ : ¬ size a + size m < size a := by omega
    rw [slice?, h₁]
    simp only [h₃, ↓reduceIte, Nat.add_sub_cancel_left, h₂, Option.map_some]

/-- The offset lies within the text and between two characters. -/
def isBoundary (t : Text) (offset : Nat) : Bool := (cut? t offset).isSome

/-- The last boundary at or before an offset. -/
def boundaryBefore (t : Text) (offset : Nat) : Nat := go 0 t
where
  go (pos : Nat) : Text → Nat
    | [] => pos
    | c :: t => if pos + c.utf8Size ≤ offset then go (pos + c.utf8Size) t else pos

/-- The first boundary at or after an offset, the end of the text for an offset past it. -/
def boundaryAfter (t : Text) (offset : Nat) : Nat := go 0 t
where
  go (pos : Nat) : Text → Nat
    | [] => pos
    | c :: t => if offset ≤ pos then pos else go (pos + c.utf8Size) t

/-- What follows a given beginning. -/
def after? : (t beginning : Text) → Option Text
  | t, [] => some t
  | [], _ :: _ => none
  | c :: cs, a :: as => if a = c then after? cs as else none

theorem after?_eq_some {t a r : Text} : after? t a = some r ↔ t = a ++ r := by
  fun_induction after? t a <;> simp_all [eq_comm]

def occurrencesFrom (needle : Text) : (skip pos : Nat) → Text → List Nat
  | _, _, [] => []
  | skip + 1, pos, c :: t => occurrencesFrom needle skip (pos + c.utf8Size) t
  | 0, pos, c :: t =>
    match after? (c :: t) needle with
    | some _ => pos :: occurrencesFrom needle (needle.length - 1) (pos + c.utf8Size) t
    | none => occurrencesFrom needle 0 (pos + c.utf8Size) t

/-- Offsets of a non-empty needle, left to right and without overlap. -/
def occurrences (t needle : Text) : List Nat := occurrencesFrom needle 0 0 t

/-- The text before and after the first occurrence of a needle. -/
def splitOnce? (t needle : Text) : Option (Text × Text) := go [] t
where
  go (before : Text) (t : Text) : Option (Text × Text) :=
    match after? t needle with
    | some rest => some (before.reverse, rest)
    | none =>
      match t with
      | [] => none
      | c :: t => go (c :: before) t

/-- Offset of the first occurrence of a needle. -/
def find? (t needle : Text) : Option Nat := (splitOnce? t needle).map (size ·.1)

/-- The pieces between the characters that satisfy a test. -/
def splitAll (t : Text) (isSeparator : Char → Bool) : List Text := go [] t
where
  go (piece : Text) : Text → List Text
    | [] => [piece.reverse]
    | c :: t => if isSeparator c then piece.reverse :: go [] t else go (c :: piece) t

/-- Texts joined with a separator between neighbours. -/
def join (separator : Text) (ts : List Text) : Text := (ts.intersperse separator).flatten

/-- The last characters of a text. -/
def takeLast (t : Text) (count : Nat) : Text := (t.reverse.take count).reverse

end Text
end Retouch
