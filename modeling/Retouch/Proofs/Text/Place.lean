import Retouch.Proofs.Text.Boundary
import Retouch.Proofs.Text.Pieces
import Retouch.Text.Line

/-! Lines and columns. The place of an offset counts the line feeds before it and the characters of its line
before it, so no two boundaries of a text have one place, and what stands on the line of a place from its
column on is what follows the offset. -/
namespace Retouch

/-- The place comes right after a beginning of a text. -/
structure Place.IsAfter (p : Place) (front : Text) : Prop where
  line : p.line = front.count '\n' + 1
  column : p.column = (front.reverse.takeWhile (· ≠ '\n')).length + 1

namespace Text

variable {p : Place} {front front' m rest rest' : Text} {c : Char}

/-- What stands on the line of a place, from its column on. -/
def fromPlace? (t : Text) (p : Place) : Option Text :=
  (splitAll t (· = '\n'))[p.line - 1]?.map (·.drop (p.column - 1))

lemma takeWhile_append_of_not_mem (h : c ∉ m) (rest : Text) :
    (m ++ rest).takeWhile (· ≠ c) = m ++ rest.takeWhile (· ≠ c) := by
  refine List.takeWhile_append_of_pos fun d hd => ?_
  rw [decide_eq_true_eq]
  rintro rfl
  exact h hd

lemma isAfter_place_go (h : p.IsAfter front) (m rest : Text) :
    (place.go (front.size + m.size) front.size p (m ++ rest)).IsAfter (front ++ m) := by
  induction m generalizing front p with
  | nil =>
    have hstop : place.go (front.size + size []) front.size p rest = p := by
      cases rest with
      | nil => rfl
      | cons c rest =>
        have := c.utf8Size_pos
        rw [place.go, size_nil, if_neg (by omega)]
    rw [List.nil_append, hstop, List.append_nil]
    exact h
  | cons c m ih =>
    have hsize : front.size + size (c :: m) = size (front ++ [c]) + size m := by
      simp [Nat.add_assoc]
    have hpos : front.size + c.utf8Size = size (front ++ [c]) := by simp
    have hfront : front ++ c :: m = (front ++ [c]) ++ m := by simp
    rw [List.cons_append, place.go, if_pos (by rw [size_cons]; omega), hsize, hpos, hfront]
    refine ih ?_
    split
    · next hfeed =>
      subst hfeed
      exact ⟨by simp [h.line], by simp⟩
    · next hfeed => exact ⟨by simp [h.line, hfeed], by simp [h.column, hfeed]⟩

/-- The place of an offset comes right after what stands before it. -/
lemma isAfter_place (front rest : Text) : (place (front ++ rest) front.size).IsAfter front := by
  have hstart : Place.IsAfter ⟨1, 1⟩ [] := ⟨rfl, rfl⟩
  have hgo := isAfter_place_go hstart front rest
  rwa [size_nil, Nat.zero_add] at hgo

lemma eq_place_of_isAfter (h : p.IsAfter front) (rest : Text) : p = place (front ++ rest) front.size := by
  obtain ⟨line, column⟩ := p
  have hplace := isAfter_place front rest
  rw [Place.mk.injEq]
  exact ⟨h.line.trans hplace.line.symm, h.column.trans hplace.column.symm⟩

lemma eq_nil_of_isAfter (h : p.IsAfter front) (h' : p.IsAfter (front ++ m)) : m = [] := by
  have hline := h.line.symm.trans h'.line
  have hfeed : '\n' ∉ m := by
    rw [List.count_append] at hline
    rw [← List.count_eq_zero]
    omega
  have hcolumn := h.column.symm.trans h'.column
  rw [List.reverse_append, takeWhile_append_of_not_mem (by simpa using hfeed), List.length_append,
    List.length_reverse] at hcolumn
  exact List.length_eq_zero_iff.1 (by omega)

/-- One beginning of a text at most comes before a place. -/
lemma eq_of_isAfter (ht : front ++ rest = front' ++ rest') (h : p.IsAfter front)
    (h' : p.IsAfter front') : front = front' := by
  rcases Nat.le_total front.size front'.size with hle | hle
  · obtain ⟨m, rfl, -⟩ := exists_append_of_size_le ht hle
    rw [eq_nil_of_isAfter h h', List.append_nil]
  · obtain ⟨m, rfl, -⟩ := exists_append_of_size_le ht.symm hle
    rw [eq_nil_of_isAfter h' h, List.append_nil]

lemma length_splitAll (t : Text) (c : Char) : (splitAll t (· = c)).length = t.count c + 1 := by
  have hgo (piece : Text) : (splitAll.go (· = c) piece t).length = t.count c + 1 := by
    induction t generalizing piece with
    | nil => rfl
    | cons d t ih =>
      rw [splitAll.go]
      by_cases hd : d = c
      · rw [if_pos (decide_eq_true hd), List.length_cons, ih, hd, List.count_cons_self]
      · rw [if_neg (by simpa using hd), ih, List.count_cons_of_ne hd]
  exact hgo []

/-- From a place on, its line goes on as the text does. -/
theorem fromPlace?_of_isAfter (h : p.IsAfter front) (rest : Text) :
    fromPlace? (front ++ rest) p = some (rest.takeWhile (· ≠ '\n')) := by
  have hline {line : Text} (hfeed : '\n' ∉ line) : ∃ later,
      splitAll (line ++ rest) (· = '\n') = (line ++ rest.takeWhile (· ≠ '\n')) :: later := by
    obtain ⟨later, hlater⟩ := exists_splitAll_eq_cons (· = '\n') (line ++ rest)
    refine ⟨later, ?_⟩
    rw [hlater, ← takeWhile_append_of_not_mem hfeed]
    simp only [decide_not]
  rw [fromPlace?, h.line, h.column, Nat.add_sub_cancel, Nat.add_sub_cancel]
  by_cases hmem : '\n' ∈ front
  · -- the line begins after the last line feed
    obtain ⟨line, above, hfront, hfeed⟩ := List.eq_append_cons_of_mem (List.mem_reverse.2 hmem)
    obtain rfl : front = above.reverse ++ '\n' :: line.reverse := by
      rw [← List.reverse_reverse front, hfront]
      simp
    have hfeed' : '\n' ∉ line.reverse := by simpa using hfeed
    obtain ⟨later, hlater⟩ := hline hfeed'
    have hcount : (above.reverse ++ '\n' :: line.reverse).count '\n' =
        (splitAll above.reverse (· = '\n')).length := by
      rw [length_splitAll, List.count_append, List.count_cons_self, List.count_eq_zero.2 hfeed']
    rw [List.append_assoc, List.cons_append, splitAll_append (by decide), hlater, hcount,
      List.getElem?_append_right (Nat.le_refl _), Nat.sub_self, hfront, takeWhile_append_of_not_mem hfeed]
    simp
  · obtain ⟨later, hlater⟩ := hline hmem
    have hcolumn : (front.reverse.takeWhile (· ≠ '\n')).length = front.length := by
      have hall := takeWhile_append_of_not_mem (show '\n' ∉ front.reverse by simpa using hmem) []
      rw [List.append_nil] at hall
      rw [hall]
      simp
    rw [hlater, List.count_eq_zero.2 hmem, hcolumn]
    simp

end Text
end Retouch
