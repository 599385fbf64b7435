import Retouch.Json.Value
import Retouch.Proofs.Text.Found
import Retouch.Proofs.Text.Utf16

/-! JSON on one line. The text of a value without space has no control characters, whatever stands in its strings:
there they are written as escapes, and everywhere else nothing is written that could be one. -/
namespace Retouch

/-- No character of a text is a control character. -/
def Text.IsInline (t : Text) : Prop := ∀ c ∈ t, 0x20 ≤ c.toNat

namespace Text

instance (t : Text) : Decidable t.IsInline := List.decidableBAll (fun c : Char => 0x20 ≤ c.toNat) t

variable {s t : Text} {c : Char}

@[simp] lemma isInline_nil : IsInline [] := nofun

@[simp] lemma isInline_cons : IsInline (c :: t) ↔ 0x20 ≤ c.toNat ∧ IsInline t := List.forall_mem_cons

@[simp] lemma isInline_append : IsInline (s ++ t) ↔ IsInline s ∧ IsInline t := List.forall_mem_append

lemma isInline_flatMap {α : Type} {as : List α} {f : α → Text} (h : ∀ a ∈ as, IsInline (f a)) :
    IsInline (as.flatMap f) := fun c hc =>
  have ⟨a, ha, hc⟩ := List.mem_flatMap.1 hc
  h a ha c hc

lemma IsInline.not_mem (h : IsInline t) (hc : c.toNat < 0x20) : c ∉ t := fun hmem =>
  absurd (h c hmem) (Nat.not_le.2 hc)

lemma IsInline.not_mem_bytes {b : UInt8} (h : IsInline t) (hb : b.toNat = c.toNat) (hc : c.toNat < 0x20) :
    b ∉ t.bytes := by
  intro hmem
  obtain ⟨d, hd, hmem⟩ := List.mem_flatMap.1 hmem
  obtain rfl := eq_of_mem_utf8EncodeChar hmem (Nat.lt_trans hc (by decide)) hb
  exact h.not_mem hc hd

lemma isInline_unitEscape {u : Nat} (hu : u < 0x10000) : IsInline (unitEscape u) := by
  have hdigit : ∀ k < 16, 0x20 ≤ k.digitChar.toNat := by decide
  rw [unitEscape, hexPadded_four hu]
  simp only [isInline_cons, isInline_nil, and_true]
  exact ⟨by decide, by decide, hdigit _ (by omega), hdigit _ (by omega), hdigit _ (by omega), hdigit _ (by omega)⟩

lemma isInline_repr (n : Nat) : IsInline n.repr.toList := by
  intro c hc
  rw [Nat.repr, String.toList_ofList] at hc
  have hdigit : c.isDigit = true := Nat.isDigit_of_mem_toDigits (by decide) (by decide) hc
  simp only [Char.isDigit, Bool.and_eq_true, decide_eq_true_eq, UInt32.le_iff_toNat_le] at hdigit
  exact Nat.le_trans (by decide) hdigit.1

end Text

namespace Json

open Text

lemma isInline_escapedChar (c : Char) : IsInline (escapedChar c) := by
  unfold escapedChar
  split
  case h_8 =>
    split
    · exact isInline_unitEscape (by omega)
    · simpa using Nat.not_lt.1 ‹_›
  all_goals decide

/-- A string is on one line, whatever characters it has. -/
lemma isInline_quoted (t : Text) : IsInline (quoted t) := by
  simp only [quoted, isInline_cons, isInline_append, isInline_nil, and_true, and_assoc]
  exact ⟨by decide, isInline_flatMap fun c _ => isInline_escapedChar c, by decide⟩

mutual

theorem isInline_compact : (j : Json) → IsInline j.compact
  | null => by decide
  | bool b => by cases b <;> decide
  | number n => isInline_repr n
  | string s => isInline_quoted s.toList
  | array items => by
    simp only [compact, isInline_cons, isInline_append, isInline_nil, and_true, and_assoc]
    exact ⟨by decide, isInline_compactItems items, by decide⟩
  | object members => by
    simp only [compact, isInline_cons, isInline_append, isInline_nil, and_true, and_assoc]
    exact ⟨by decide, isInline_compactMembers members, by decide⟩

theorem isInline_compactItems : (items : List Json) → IsInline (compactItems items)
  | [] => isInline_nil
  | [j] => isInline_compact j
  | j :: k :: rest => by
    simp only [compactItems, isInline_cons, isInline_append]
    exact ⟨isInline_compact j, by decide, isInline_compactItems (k :: rest)⟩

theorem isInline_compactMembers : (members : List (String × Json)) → IsInline (compactMembers members)
  | [] => isInline_nil
  | [(key, j)] => by
    simp only [compactMembers, isInline_cons, isInline_append]
    exact ⟨isInline_quoted key.toList, by decide, isInline_compact j⟩
  | (key, j) :: m :: rest => by
    simp only [compactMembers, isInline_cons, isInline_append, and_assoc]
    exact ⟨isInline_quoted key.toList, by decide, isInline_compact j, by decide, isInline_compactMembers (m :: rest)⟩

end

end Json
end Retouch
