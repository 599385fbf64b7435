import Mathlib.Order.Bounds.Defs
import Mathlib.Tactic.Lemma
import Retouch.Text.Basic

/-! Boundaries of a text as sizes of its beginnings. A slice exists exactly between two boundaries
in order, and rounding an offset down always gives a boundary. -/
namespace Retouch.Text

@[simp] lemma size_eq_zero {t : Text} : size t = 0 ↔ t = [] := by
  cases t with
  | nil => simp
  | cons c t => have := c.utf8Size_pos; simp; omega

lemma isBoundary_iff {t : Text} {n : Nat} : t.isBoundary n ↔ ∃ a b, t = a ++ b ∧ size a = n := by
  simp [isBoundary, Option.isSome_iff_exists, cut?_eq_some]

lemma isBoundary_size (t : Text) : t.isBoundary t.size := isBoundary_iff.2 ⟨t, [], by simp, rfl⟩

lemma isBoundary_zero (t : Text) : t.isBoundary 0 := isBoundary_iff.2 ⟨[], t, by simp⟩

lemma isBoundary_append_size (a b : Text) : (a ++ b).isBoundary a.size :=
  isBoundary_iff.2 ⟨a, b, rfl, rfl⟩

lemma le_size_of_isBoundary {t : Text} {n : Nat} (h : t.isBoundary n) : n ≤ t.size := by
  obtain ⟨a, b, rfl, rfl⟩ := isBoundary_iff.1 h
  simp

/-- Of two beginnings of one text, the one that is not longer starts the other. -/
lemma exists_append_of_size_le {a b a' b' : Text} (h : a ++ b = a' ++ b') (hsize : a.size ≤ a'.size) :
    ∃ m, a' = a ++ m ∧ b = m ++ b' := by
  rcases List.append_eq_append_iff.1 h with ⟨m, ha, hb⟩ | ⟨m, ha, hb⟩
  · exact ⟨m, ha, hb⟩
  · have hm : m = [] := by
      rw [ha, size_append] at hsize
      exact size_eq_zero.1 (by omega)
    exact ⟨[], by simp [ha, hm], by simp [hb, hm]⟩

/-- Beginnings of one text with one size are the same. -/
lemma append_inj_of_size {a b a' b' : Text} (h : a ++ b = a' ++ b') (hsize : a.size = a'.size) :
    a = a' ∧ b = b' := by
  obtain ⟨m, rfl, rfl⟩ := exists_append_of_size_le h (Nat.le_of_eq hsize)
  rw [size_append, Nat.left_eq_add, size_eq_zero] at hsize
  simp [hsize]

/-- A beginning that ends in a character ends after it. -/
lemma eq_append_of_size_le {a b front rest : Text} {c : Char} (h : a ++ b = front ++ [c] ++ rest)
    (hlt : front.size < a.size) (hle : a.size ≤ size (front ++ [c])) : a = front ++ [c] := by
  obtain ⟨m, hm, -⟩ := exists_append_of_size_le h hle
  rcases List.eq_nil_or_concat m with rfl | ⟨m, d, rfl⟩
  · rw [hm, List.append_nil]
  · rw [List.concat_eq_append, ← List.append_assoc] at hm
    rw [(List.append_inj' hm rfl).1, size_append] at hlt
    omega

lemma slice?_append (a m b : Text) : (a ++ m ++ b).slice? a.size (a.size + m.size) = some m :=
  slice?_eq_some.2 ⟨a, b, rfl, rfl, rfl⟩

/-- A character at the beginning moves what is sliced. -/
lemma slice?_cons (c : Char) (t : Text) (start stop : Nat) :
    slice? (c :: t) (c.utf8Size + start) (c.utf8Size + stop) = t.slice? start stop := by
  ext m
  rw [slice?_eq_some, slice?_eq_some]
  constructor
  · rintro ⟨a, b, ht, hstart, hstop⟩
    cases a with
    | nil =>
      have := c.utf8Size_pos
      rw [size_nil] at hstart
      omega
    | cons d a =>
      obtain ⟨rfl, rfl⟩ : c = d ∧ t = a ++ m ++ b := by simpa using ht
      rw [size_cons] at hstart hstop
      exact ⟨a, b, rfl, by omega, by omega⟩
  · rintro ⟨a, b, rfl, rfl, rfl⟩
    exact ⟨c :: a, b, rfl, size_cons c a, by rw [size_cons, Nat.add_assoc]⟩

/-- A slice exists exactly between two boundaries in order. -/
lemma isSome_slice?_iff {t : Text} {start stop : Nat} :
    (t.slice? start stop).isSome ↔ start ≤ stop ∧ t.isBoundary start ∧ t.isBoundary stop := by
  constructor
  · intro h
    obtain ⟨m, hm⟩ := Option.isSome_iff_exists.1 h
    obtain ⟨a, b, rfl, rfl, rfl⟩ := slice?_eq_some.1 hm
    refine ⟨by omega, ?_, ?_⟩
    · rw [List.append_assoc]
      exact isBoundary_append_size a (m ++ b)
    · rw [← size_append]
      exact isBoundary_append_size (a ++ m) b
  · rintro ⟨hle, hstart, hstop⟩
    obtain ⟨a, b, rfl, rfl⟩ := isBoundary_iff.1 hstart
    obtain ⟨a', b', hab, rfl⟩ := isBoundary_iff.1 hstop
    obtain ⟨m, rfl, rfl⟩ := exists_append_of_size_le hab hle
    rw [← List.append_assoc, size_append, slice?_append]
    rfl

/-- Two boundaries in order cut a text in three. -/
lemma exists_append_of_isBoundary {t : Text} {start stop : Nat} (hstart : t.isBoundary start)
    (hstop : t.isBoundary stop) (hle : start ≤ stop) :
    ∃ a m b, t = a ++ m ++ b ∧ a.size = start ∧ size (a ++ m) = stop := by
  obtain ⟨m, hm⟩ := Option.isSome_iff_exists.1 (isSome_slice?_iff.2 ⟨hle, hstart, hstop⟩)
  obtain ⟨a, b, rfl, ha, hm⟩ := slice?_eq_some.1 hm
  exact ⟨a, m, b, rfl, ha, by rw [size_append, hm]⟩

lemma boundaryBefore_go_spec (offset : Nat) (a t : Text) (h : a.size ≤ offset) :
    ∃ m, ∃ b, t = m ++ b ∧ boundaryBefore.go offset a.size t = a.size + m.size ∧
      a.size + m.size ≤ offset := by
  induction t generalizing a with
  | nil => exact ⟨[], [], rfl, rfl, by simpa using h⟩
  | cons c t ih =>
    rw [boundaryBefore.go]
    split
    · next hc =>
      obtain ⟨m, b, rfl, hgo, hle⟩ := ih (a ++ [c]) (by simpa using hc)
      simp only [size_append, size_cons, size_nil, Nat.add_zero] at hgo hle
      exact ⟨c :: m, b, rfl, by rw [hgo, size_cons]; omega, by rw [size_cons]; omega⟩
    · exact ⟨[], c :: t, rfl, rfl, by simpa using h⟩

lemma isBoundary_boundaryBefore (t : Text) (n : Nat) : t.isBoundary (t.boundaryBefore n) := by
  obtain ⟨m, b, rfl, hgo, -⟩ := boundaryBefore_go_spec n [] t (by simp)
  rw [size_nil, Nat.zero_add] at hgo
  exact isBoundary_iff.2 ⟨m, b, rfl, hgo.symm⟩

lemma boundaryBefore_le (t : Text) (n : Nat) : t.boundaryBefore n ≤ n := by
  obtain ⟨m, b, rfl, hgo, hle⟩ := boundaryBefore_go_spec n [] t (by simp)
  rw [size_nil, Nat.zero_add] at hgo hle
  exact Nat.le_trans (Nat.le_of_eq hgo) hle

lemma le_boundaryBefore_go {offset : Nat} {a m b : Text} (h : a.size + m.size ≤ offset) :
    a.size + m.size ≤ boundaryBefore.go offset a.size (m ++ b) := by
  induction m generalizing a with
  | nil =>
    obtain ⟨m', b', -, hgo, -⟩ := boundaryBefore_go_spec offset a b (by simpa using h)
    simp only [List.nil_append, size_nil] at hgo ⊢
    omega
  | cons c m ih =>
    rw [size_cons] at h
    rw [List.cons_append, boundaryBefore.go, if_pos (by omega), size_cons]
    have := ih (a := a ++ [c]) (by simp; omega)
    simp only [size_append, size_cons, size_nil, Nat.add_zero] at this
    omega

lemma boundaryBefore_go_add (k n pos : Nat) (t : Text) :
    boundaryBefore.go (k + n) (k + pos) t = k + boundaryBefore.go n pos t := by
  induction t generalizing pos with
  | nil => rfl
  | cons c t ih =>
    rw [boundaryBefore.go, boundaryBefore.go, Nat.add_assoc, ih]
    simp only [Nat.add_le_add_iff_left]
    split <;> rfl

lemma boundaryBefore_cons (c : Char) (t : Text) (n : Nat) :
    boundaryBefore (c :: t) (c.utf8Size + n) = c.utf8Size + t.boundaryBefore n := by
  rw [boundaryBefore, boundaryBefore.go, if_pos (by omega), Nat.add_comm 0, boundaryBefore_go_add]
  rfl

/-- Rounding down gives the greatest boundary that is not past the offset. -/
lemma le_boundaryBefore {t : Text} {n k : Nat} (h : t.isBoundary k) (hle : k ≤ n) :
    k ≤ t.boundaryBefore n := by
  obtain ⟨a, b, rfl, rfl⟩ := isBoundary_iff.1 h
  have hgo := le_boundaryBefore_go (a := []) (m := a) (b := b) (by simpa using hle)
  rwa [size_nil, Nat.zero_add] at hgo

/-- The last boundary that is not past an offset. -/
def RoundsDown (t : Text) (offset n : Nat) : Prop := IsGreatest {k | t.isBoundary k = true ∧ k ≤ offset} n

lemma roundsDown_iff {t : Text} {offset n : Nat} : t.RoundsDown offset n ↔ t.boundaryBefore offset = n := by
  have hgreatest : t.RoundsDown offset (t.boundaryBefore offset) :=
    ⟨⟨isBoundary_boundaryBefore t offset, boundaryBefore_le t offset⟩, fun _ hk => le_boundaryBefore hk.1 hk.2⟩
  constructor
  · intro h
    exact Nat.le_antisymm (h.2 hgreatest.1) (hgreatest.2 h.1)
  · rintro rfl
    exact hgreatest

lemma roundsDown_of_isBoundary {t : Text} {n : Nat} (h : t.isBoundary n) : t.RoundsDown n n :=
  ⟨⟨h, Nat.le_refl n⟩, fun _ hk => hk.2⟩

/-- An offset past the end rounds down like any other one. -/
lemma roundsDown_min_iff {t : Text} {offset limit n : Nat} (h : t.size ≤ limit) :
    t.RoundsDown (min offset limit) n ↔ t.RoundsDown offset n := by
  have hmin {k : Nat} (hk : t.isBoundary k = true) : k ≤ min offset limit ↔ k ≤ offset := by
    have := le_size_of_isBoundary hk
    omega
  have hset : {k | t.isBoundary k = true ∧ k ≤ min offset limit} = {k | t.isBoundary k = true ∧ k ≤ offset} :=
    Set.ext fun k => and_congr_right hmin
  rw [RoundsDown, hset, RoundsDown]

end Retouch.Text
