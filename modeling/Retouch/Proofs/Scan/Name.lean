import Mathlib.Data.List.DropRight
import Retouch.Proofs.Text.Boundary
import Retouch.Scan.Name

/-! The identifier before an offset. It reaches back as far as there are characters of an identifier, and there is
none if that is no way at all or comes to a digit. -/
namespace Retouch.Scan

variable {t front rest name : Text} {stop : Nat}

/-- A whole identifier ends at an offset of the text. -/
def EndsName (t : Text) (stop : Nat) (name : Text) : Prop :=
  ∃ front rest, t = front ++ name ++ rest ∧ Text.size (front ++ name) = stop ∧ name ≠ [] ∧
    (∀ c ∈ name, isNameChar c) ∧ (∀ c ∈ name.head?, c.isDigit = false) ∧
    ∀ c ∈ front.getLast?, isNameChar c = false

/-- The characters of an identifier at the end of a text. -/
lemma rtakeWhile_isNameChar_eq_iff : front.rtakeWhile isNameChar = name ↔
    ∃ before, front = before ++ name ∧ (∀ c ∈ name, isNameChar c) ∧ ∀ c ∈ before.getLast?, isNameChar c = false := by
  constructor
  · rintro rfl
    refine ⟨front.rdropWhile isNameChar, List.rdropWhile_append_rtakeWhile.symm, fun c => List.mem_rtakeWhile_imp, ?_⟩
    intro c hc
    obtain ⟨before, hbefore⟩ := List.getLast?_eq_some_iff.1 hc
    have hlast := List.rdropWhile_last_not isNameChar front
    simpa [hbefore] using hlast
  · rintro ⟨before, rfl, hname, hbefore⟩
    have hnone : before.rtakeWhile isNameChar = [] := by
      refine List.rtakeWhile_eq_nil_iff.2 fun hne => ?_
      rw [hbefore _ (List.getLast?_eq_some_getLast hne)]
      exact Bool.false_ne_true
    rw [List.rtakeWhile, List.reverse_append, List.takeWhile_append_of_pos (by simpa using hname), List.reverse_append,
      List.reverse_reverse, ← List.rtakeWhile, hnone, List.nil_append]

lemma trailingName?_eq_some_iff : trailingName? front = some name ↔ front.rtakeWhile isNameChar = name ∧ name ≠ [] ∧
    ∀ c ∈ name.head?, c.isDigit = false := by
  have hiff : trailingName? front = some name ↔ ¬((front.rtakeWhile isNameChar).isEmpty ||
      (front.rtakeWhile isNameChar).head?.any Char.isDigit) = true ∧ front.rtakeWhile isNameChar = name := by
    rw [trailingName?, ← List.rtakeWhile]
    simp only [ite_eq_iff, reduceCtorEq, and_false, Option.some.injEq, false_or]
  rw [hiff, and_comm]
  refine and_congr_right ?_
  rintro rfl
  cases (front.rtakeWhile isNameChar).head? <;> simp

lemma endsName_append_iff : EndsName (front ++ rest) front.size name ↔ trailingName? front = some name := by
  rw [trailingName?_eq_some_iff, rtakeWhile_isNameChar_eq_iff]
  constructor
  · rintro ⟨before, after, ht, hsize, hne, hname, hdigit, hbefore⟩
    obtain ⟨rfl, -⟩ := Text.append_inj_of_size ht hsize.symm
    exact ⟨⟨before, rfl, hname, hbefore⟩, hne, hdigit⟩
  · rintro ⟨⟨before, rfl, hname, hbefore⟩, hne, hdigit⟩
    exact ⟨before, rest, rfl, rfl, hne, hname, hdigit, hbefore⟩

/-- The name before an offset is the whole identifier that ends there. -/
theorem exists_nameBefore? (h : t.isBoundary stop) :
    ∃ o, nameBefore? t stop = .ok o ∧ ∀ name, (∃ start, o = some (start, name)) ↔ EndsName t stop name := by
  obtain ⟨front, rest, rfl, rfl⟩ := Text.isBoundary_iff.1 h
  have hle : front.size ≤ Text.size (front ++ rest) := Text.le_size_of_isBoundary h
  have hcut : (front ++ rest).cut? front.size = some (front, rest) := Text.cut?_eq_some.2 ⟨rfl, rfl⟩
  refine ⟨(trailingName? front).map fun name => (front.size - name.size, name), ?_, fun name => ?_⟩
  · rw [nameBefore?, if_pos hle, hcut]
    exact congrArg Except.ok Option.map_eq_bind.symm
  · rw [endsName_append_iff]
    cases trailingName? front <;> simp

end Retouch.Scan
