import Mathlib.Tactic.Lemma
import Retouch.Literal.Style

/-! Backslashes that escape what follows them. A run of backslashes escapes the next character if it is
odd, since each pair in it is an escaped backslash. -/
namespace Retouch.Literal

/-- The backslashes at the end of a text escape what follows it. -/
def Escaping (t : Text) : Prop := (t.reverse.takeWhile (· = '\\')).length % 2 = 1

instance (t : Text) : Decidable (Escaping t) := inferInstanceAs (Decidable (_ = _))

@[simp] lemma not_escaping_nil : ¬Escaping [] := by decide

@[simp] lemma escaping_append_singleton (t : Text) (c : Char) :
    Escaping (t ++ [c]) ↔ c = '\\' ∧ ¬Escaping t := by
  unfold Escaping
  rw [List.reverse_append, List.reverse_singleton, List.singleton_append, List.takeWhile_cons]
  by_cases hc : c = '\\'
  · simp only [hc, decide_true, ↓reduceIte, List.length_cons, true_and]
    omega
  · simp [hc]

/-- A character that is no backslash ends every run. -/
lemma not_escaping_of_ne {t : Text} {c : Char} (h : c ≠ '\\') : ¬Escaping (t ++ [c]) := by
  simp [h]

/-- An escaped character escapes nothing. -/
lemma not_escaping_pair {t : Text} (h : ¬Escaping t) (c : Char) : ¬Escaping (t ++ ['\\', c]) := by
  have hsplit : t ++ ['\\', c] = (t ++ ['\\']) ++ [c] := by simp
  rw [hsplit, escaping_append_singleton]
  simp [h]

end Retouch.Literal
