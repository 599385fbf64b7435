import Mathlib.Tactic.Lemma
import Retouch.Text.Utf8

/-! Text read from UTF-8. Where nothing is malformed, the strict reading and the lossy one agree, and a
whole character at the beginning is read apart from what follows it. -/
namespace Retouch.Utf8

lemma allSome_eq_some {found t : Text} {us : List (Option Char)} (h : allSome found us = some t) :
    ∃ s, us = s.map some ∧ t = found.reverse ++ s := by
  induction us generalizing found with
  | nil =>
    cases h
    exact ⟨[], rfl, by simp⟩
  | cons u us ih =>
    cases u with
    | none => cases h
    | some c =>
      obtain ⟨s, rfl, rfl⟩ := ih h
      exact ⟨c :: s, rfl, by simp⟩

lemma units_of_decode? {bs : List UInt8} {t : Text} (h : decode? bs = some t) :
    units bs = t.map some := by
  obtain ⟨s, hs, rfl⟩ := allSome_eq_some h
  simpa using hs

lemma decodeLossy_of_units {bs : List UInt8} {t : Text} (h : units bs = t.map some) :
    decodeLossy bs = t := by
  rw [decodeLossy, h, List.map_map]
  exact List.map_id t

/-- A step adds to the units that are there, whatever they are. -/
lemma step_append (r : Reading) (us : List (Option Char)) (b : UInt8) :
    step ⟨r.units ++ us, r.pending⟩ b = ⟨(step r b).units ++ us, (step r b).pending⟩ := by
  have hstart (vs : List (Option Char)) : start (vs ++ us) b =
      ⟨(start vs b).units ++ us, (start vs b).pending⟩ := by
    unfold start
    split
    · rfl
    · split <;> rfl
  unfold step
  cases r.pending with
  | none => exact hstart r.units
  | some p =>
    dsimp only
    split
    · split <;> rfl
    · exact hstart (none :: r.units)

lemma foldl_step_append (r : Reading) (us : List (Option Char)) (bs : List UInt8) :
    bs.foldl step ⟨r.units ++ us, r.pending⟩ =
      ⟨(bs.foldl step r).units ++ us, (bs.foldl step r).pending⟩ := by
  induction bs generalizing r with
  | nil => rfl
  | cons b bs ih => rw [List.foldl_cons, List.foldl_cons, step_append, ih]

/-- Bytes that are read to the end of a character keep to themselves. -/
lemma units_append {front : List UInt8} {us : List (Option Char)}
    (h : front.foldl step ⟨[], none⟩ = ⟨us.reverse, none⟩) (bs : List UInt8) :
    units (front ++ bs) = us ++ units bs := by
  have happend := foldl_step_append ⟨[], none⟩ us.reverse bs
  rw [List.nil_append] at happend
  rw [units, units, List.foldl_append, h, happend]
  dsimp only
  split <;> simp

/-! ## Written text -/

lemma lead?_two : ∀ a < 32, 2 ≤ a → lead? (UInt8.ofNat (a + 192)) = some ⟨a, 1, 0x80, 0xBF⟩ := by
  decide

lemma lead?_three : ∀ a < 16, lead? (UInt8.ofNat (a + 224)) =
    some ⟨a, 2, if a = 0 then 0xA0 else 0x80, if a = 0xD then 0x9F else 0xBF⟩ := by
  decide

lemma lead?_four : ∀ a < 5, lead? (UInt8.ofNat (a + 240)) =
    some ⟨a, 3, if a = 0 then 0x90 else 0x80, if a = 4 then 0x8F else 0xBF⟩ := by
  decide

lemma lead?_one : ∀ a < 0x80, lead? (UInt8.ofNat a) = none := by decide

lemma step_of_lead? {b : UInt8} {p : Pending} (h : lead? b = some p) (us : List (Option Char)) :
    step ⟨us, none⟩ b = ⟨us, some p⟩ := by
  have hlong : ¬b < 0x80 := by
    intro hshort
    have hnone := lead?_one b.toNat (UInt8.lt_iff_toNat_lt.1 hshort)
    rw [UInt8.ofNat_toNat, h] at hnone
    cases hnone
  rw [step, start, if_neg hlong, h]

/-- A later byte of a character gives six bits. -/
lemma step_tail {p : Pending} {k : Nat} (hk : k < 64) (hlow : p.low.toNat ≤ k + 128)
    (hhigh : k + 128 ≤ p.high.toNat) (us : List (Option Char)) :
    step ⟨us, some p⟩ (UInt8.ofNat (k + 128)) =
      if p.needed ≤ 1 then ⟨some (Char.ofNat (64 * p.bits + k)) :: us, none⟩
      else ⟨us, some ⟨64 * p.bits + k, p.needed - 1, 0x80, 0xBF⟩⟩ := by
  have hbyte : (UInt8.ofNat (k + 128)).toNat = k + 128 := by
    rw [UInt8.toNat_ofNat']
    omega
  have hwithin : (decide (p.low ≤ UInt8.ofNat (k + 128)) && decide (UInt8.ofNat (k + 128) ≤ p.high)) =
      true := by
    rw [Bool.and_eq_true, decide_eq_true_eq, decide_eq_true_eq, UInt8.le_iff_toNat_le,
      UInt8.le_iff_toNat_le, hbyte]
    exact ⟨hlow, hhigh⟩
  rw [step]
  dsimp only
  rw [if_pos hwithin, hbyte, Nat.add_sub_cancel]

lemma step_more {bits needed k : Nat} {low high : UInt8} (hk : k < 64)
    (hlow : low.toNat ≤ k + 128) (hhigh : k + 128 ≤ high.toNat) (us : List (Option Char)) :
    step ⟨us, some ⟨bits, needed + 2, low, high⟩⟩ (UInt8.ofNat (k + 128)) =
      ⟨us, some ⟨64 * bits + k, needed + 1, 0x80, 0xBF⟩⟩ :=
  (step_tail hk hlow hhigh us).trans (if_neg (Nat.not_le.2 (Nat.lt_add_left needed (by decide))))

/-- The last byte ends the character. -/
lemma step_last {bits k : Nat} (hk : k < 64) (us : List (Option Char)) :
    step ⟨us, some ⟨bits, 1, 0x80, 0xBF⟩⟩ (UInt8.ofNat (k + 128)) =
      ⟨some (Char.ofNat (64 * bits + k)) :: us, none⟩ :=
  step_tail hk (Nat.le_add_left _ _) (by change k + 128 ≤ 191; omega) us

/-- The bytes of a character are read as the character. -/
lemma foldl_step_utf8EncodeChar (c : Char) (us : List (Option Char)) :
    (String.utf8EncodeChar c).foldl step ⟨us, none⟩ = ⟨some c :: us, none⟩ := by
  obtain ⟨v, hv⟩ : ∃ v, v = c.val.toNat := ⟨_, rfl⟩
  have hchar : Char.ofNat v = c := hv ▸ Char.ofNat_toNat c
  have hrange : v < 0xD800 ∨ 0xDFFF < v ∧ v < 0x110000 := hv ▸ c.valid
  have hbits (n : Nat) : n % 64 < 64 := Nat.mod_lt _ (by decide)
  unfold String.utf8EncodeChar
  rw [← hv]
  dsimp only
  split
  · have hshort : UInt8.ofNat v < 0x80 := by
      rw [UInt8.lt_iff_toNat_lt, UInt8.toNat_ofNat']
      change v % 256 < 128
      omega
    rw [List.foldl_cons, List.foldl_nil, step, start, if_pos hshort, UInt8.toNat_ofNat',
      Nat.mod_eq_of_lt (by omega), hchar]
  · split
    · have hvalue : 64 * (v / 64 % 32) + v % 64 = v := by omega
      rw [List.foldl_cons, List.foldl_cons, List.foldl_nil,
        step_of_lead? (lead?_two _ (by omega) (by omega)), step_last (hbits _), hvalue, hchar]
    · split
      · have hvalue : 64 * (64 * (v / 4096 % 16) + v / 64 % 64) + v % 64 = v := by omega
        rw [List.foldl_cons, List.foldl_cons, List.foldl_cons, List.foldl_nil,
          step_of_lead? (lead?_three _ (by omega)), step_more (hbits _) ?_ ?_, step_last (hbits _),
          hvalue, hchar]
        · split
          · change 160 ≤ _
            omega
          · exact Nat.le_add_left _ _
        · split
          · change _ ≤ 159
            omega
          · change _ ≤ 191
            omega
      · have hvalue : 64 * (64 * (64 * (v / 262144 % 8) + v / 4096 % 64) + v / 64 % 64) + v % 64 = v := by
          omega
        rw [List.foldl_cons, List.foldl_cons, List.foldl_cons, List.foldl_cons, List.foldl_nil,
          step_of_lead? (lead?_four _ (by omega)), step_more (hbits _) ?_ ?_,
          step_more (hbits _) (Nat.le_add_left _ _) ?_, step_last (hbits _), hvalue, hchar]
        · change _ ≤ 191
          omega
        · split
          · change 144 ≤ _
            omega
          · exact Nat.le_add_left _ _
        · split
          · change _ ≤ 143
            omega
          · change _ ≤ 191
            omega

theorem units_bytes (t : Text) : units (Text.bytes t) = t.map some := by
  induction t with
  | nil => rfl
  | cons c t ih =>
    have hchar : Text.bytes (c :: t) = String.utf8EncodeChar c ++ Text.bytes t := rfl
    have hfirst : (String.utf8EncodeChar c).foldl step ⟨[], none⟩ = ⟨[some c].reverse, none⟩ :=
      foldl_step_utf8EncodeChar c []
    rw [hchar, units_append hfirst, ih]
    rfl

lemma allSome_map_some (found t : Text) : allSome found (t.map some) = some (found.reverse ++ t) := by
  induction t generalizing found with
  | nil => simp [allSome]
  | cons c t ih => simp [allSome, ih]

/-- Text is read back from its bytes. -/
theorem decode?_bytes (t : Text) : decode? (Text.bytes t) = some t := by
  rw [decode?, units_bytes, allSome_map_some]
  rfl

lemma bytes_injective {t u : Text} (h : t.bytes = u.bytes) : t = u := by
  have hdecode := congrArg decode? h
  rw [decode?_bytes, decode?_bytes] at hdecode
  exact Option.some.inj hdecode

end Retouch.Utf8
