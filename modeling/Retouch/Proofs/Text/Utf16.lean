import Mathlib.Tactic.Lemma
import Retouch.Text.Digit
import Retouch.Text.Utf16

/-! Reading sixteen-bit units. The units of a text give it back, with surrogates taken in pairs, and
the four digits of a unit's escape have its value. -/
namespace Retouch.Text

def isSurrogate (u : Nat) : Bool := 0xD800 ≤ u && u < 0xE000

/-- The text of some units; a surrogate that has no partner is no character. -/
def ofUnits16? : List Nat → Option Text
  | [] => some []
  | u :: us =>
    if isSurrogate u then
      match us with
      | [] => none
      | v :: rest =>
        if u < 0xDC00 && 0xDC00 ≤ v && v < 0xE000 then
          (ofUnits16? rest).map (Char.ofNat (0x10000 + 0x400 * (u - 0xD800) + (v - 0xDC00)) :: ·)
        else none
    else if u < 0x10000 then (ofUnits16? us).map (Char.ofNat u :: ·)
    else none

lemma toNat_bounds (c : Char) : c.toNat < 0xD800 ∨ (0xDFFF < c.toNat ∧ c.toNat < 0x110000) := c.valid

lemma units16_of_lt {c : Char} (h : c.toNat < 0x10000) : units16 c = [c.toNat] := if_pos h

lemma units16_of_not_lt {c : Char} (h : ¬ c.toNat < 0x10000) : units16 c =
    [0xD800 + (c.toNat - 0x10000) / 0x400, 0xDC00 + (c.toNat - 0x10000) % 0x400] := if_neg h

lemma lt_of_mem_units16 {c : Char} {u : Nat} (h : u ∈ units16 c) : u < 0x10000 := by
  have hc := toNat_bounds c
  by_cases hlt : c.toNat < 0x10000
  · rw [units16_of_lt hlt, List.mem_singleton] at h
    omega
  · simp only [units16_of_not_lt hlt, List.mem_cons, List.not_mem_nil, or_false] at h
    omega

lemma exists_units16_cons (c : Char) : ∃ u us, units16 c = u :: us := by
  by_cases hlt : c.toNat < 0x10000
  · exact ⟨_, _, units16_of_lt hlt⟩
  · exact ⟨_, _, units16_of_not_lt hlt⟩

/-- The escapes of a character start as an escape does. -/
lemma exists_unitEscapes (c : Char) : ∃ s, (units16 c).flatMap unitEscape = '\\' :: 'u' :: s := by
  obtain ⟨u, us, hunits⟩ := exists_units16_cons c
  rw [hunits]
  exact ⟨_, rfl⟩

lemma ofUnits16?_cons {u : Nat} (us : List Nat) (h : isSurrogate u = false) (hlt : u < 0x10000) :
    ofUnits16? (u :: us) = (ofUnits16? us).map (Char.ofNat u :: ·) := by
  cases us <;> simp [ofUnits16?, h, hlt]

lemma ofUnits16?_units16_append (c : Char) (us : List Nat) :
    ofUnits16? (units16 c ++ us) = (ofUnits16? us).map (c :: ·) := by
  have hc := toNat_bounds c
  by_cases h : c.toNat < 0x10000
  · have hsurrogate : isSurrogate c.toNat = false := by simp [isSurrogate]; omega
    rw [units16_of_lt h, List.singleton_append, ofUnits16?_cons us hsurrogate h, Char.ofNat_toNat]
  · have hhigh : isSurrogate (0xD800 + (c.toNat - 0x10000) / 0x400) = true := by
      simp [isSurrogate]
      omega
    have hpair : (decide (0xD800 + (c.toNat - 0x10000) / 0x400 < 0xDC00) &&
        decide (0xDC00 ≤ 0xDC00 + (c.toNat - 0x10000) % 0x400) &&
        decide (0xDC00 + (c.toNat - 0x10000) % 0x400 < 0xE000)) = true := by
      simp
      omega
    have hvalue : 0x10000 + 0x400 * (0xD800 + (c.toNat - 0x10000) / 0x400 - 0xD800) +
        (0xDC00 + (c.toNat - 0x10000) % 0x400 - 0xDC00) = c.toNat := by omega
    rw [units16_of_not_lt h, List.cons_append, List.singleton_append, ofUnits16?, if_pos hhigh,
      if_pos hpair, hvalue, Char.ofNat_toNat]

theorem ofUnits16?_flatMap (t : Text) : ofUnits16? (t.flatMap units16) = some t := by
  induction t with
  | nil => rfl
  | cons c t ih => rw [List.flatMap_cons, ofUnits16?_units16_append, ih]; rfl

/-! ## Digits of a unit -/

lemma digitValue?_digitChar : ∀ k < 16, digitValue? k.digitChar = some k := by decide

lemma hexPadded_one {n : Nat} (h : n < 16) : hexPadded 1 n = [n.digitChar] := by
  simp [hexPadded, hex, Nat.toDigits_of_lt_base h]

lemma hexPadded_succ {width n : Nat} (h : 0 < width) :
    hexPadded (width + 1) n = hexPadded width (n / 16) ++ [(n % 16).digitChar] := by
  unfold hexPadded hex
  by_cases hn : n < 16
  · have hzero : n / 16 = 0 := by omega
    have hsucc : List.replicate width '0' = List.replicate (width - 1) '0' ++ ['0'] := by
      rw [← List.replicate_succ', Nat.sub_add_cancel h]
    simp [Nat.toDigits_of_lt_base hn, hzero, Nat.mod_eq_of_lt hn, hsucc]
  · rw [Nat.toDigits_of_base_le (by decide) (by omega)]
    simp [Nat.add_sub_add_right]

/-- The four digits of a unit. -/
lemma hexPadded_four {u : Nat} (h : u < 0x10000) :
    hexPadded 4 u = [(u / 4096).digitChar, (u / 256 % 16).digitChar, (u / 16 % 16).digitChar,
      (u % 16).digitChar] := by
  rw [hexPadded_succ (by decide), hexPadded_succ (by decide), hexPadded_succ (by decide),
    hexPadded_one (by omega)]
  simp only [Nat.div_div_eq_div_mul, List.cons_append, List.nil_append]

lemma numeral?_hexPadded {u : Nat} (h : u < 0x10000) : numeral? 16 (hexPadded 4 u) = some u := by
  have h₁ := digitValue?_digitChar (u / 4096) (by omega)
  have h₂ := digitValue?_digitChar (u / 256 % 16) (by omega)
  have h₃ := digitValue?_digitChar (u / 16 % 16) (by omega)
  have h₄ := digitValue?_digitChar (u % 16) (by omega)
  have l₁ : u / 4096 < 16 := by omega
  have l₂ : u / 256 % 16 < 16 := by omega
  have l₃ : u / 16 % 16 < 16 := by omega
  have l₄ : u % 16 < 16 := by omega
  rw [hexPadded_four h]
  simp only [numeral?, List.isEmpty_cons, Bool.false_eq_true, ↓reduceIte, numeralFrom, h₁, h₂, h₃,
    h₄, l₁, l₂, l₃, l₄, bind, Option.bind, Option.some.injEq]
  omega

end Retouch.Text
