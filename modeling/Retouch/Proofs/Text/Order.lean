import Mathlib.Data.List.Lex
import Mathlib.Tactic.Lemma
import Retouch.Text.Basic

/-! Texts in the order of their characters are in the order of their bytes: where two characters differ, the
greater one has a greater byte at the first place at which their bytes do. -/
namespace Retouch.Text

lemma ofNat_cons_lt_iff {m n : Nat} (hm : m < 256) (hn : n < 256) {bs bs' : List UInt8} :
    UInt8.ofNat m :: bs < UInt8.ofNat n :: bs' ↔ m < n ∨ m = n ∧ bs < bs' := by
  rw [List.cons_lt_cons_iff, UInt8.lt_iff_toNat_lt, ← UInt8.toNat_inj, UInt8.toNat_ofNat_of_lt' hm,
    UInt8.toNat_ofNat_of_lt' hn]

/-- The bytes of two characters differ at some byte that both have, whatever comes behind them. -/
lemma utf8EncodeChar_append_lt {c d : Char} (h : c < d) (bs bs' : List UInt8) :
    String.utf8EncodeChar c ++ bs < String.utf8EncodeChar d ++ bs' := by
  have hlt : c.val.toNat < d.val.toNat := h
  have hlast : d.val.toNat < 0x110000 := by
    have hvalid := d.valid
    unfold UInt32.isValidChar Nat.isValidChar at hvalid
    omega
  -- each byte has the six bits above those of the next one
  have htwice (k : Nat) : k / 4096 = k / 64 / 64 := by omega
  have hthrice (k : Nat) : k / 262144 = k / 64 / 64 / 64 := by omega
  simp only [String.utf8EncodeChar, htwice, hthrice]
  generalize c.val.toNat = m at hlt
  generalize d.val.toNat = n at hlt hlast
  split_ifs <;> simp (disch := omega) only [List.cons_append, ofNat_cons_lt_iff] <;> omega

lemma bytes_lt_bytes {s t : Text} (h : s < t) : s.bytes < t.bytes := by
  induction h with
  | @nil c t =>
    obtain ⟨b, bs, hbytes⟩ := List.exists_cons_of_ne_nil (show bytes (c :: t) ≠ [] by simp [bytes])
    rw [hbytes]
    exact List.Lex.nil
  | @cons c s t _ ih => exact List.append_left_lt ih
  | @rel c s d t hlt => exact utf8EncodeChar_append_lt hlt (bytes s) (bytes t)

end Retouch.Text
