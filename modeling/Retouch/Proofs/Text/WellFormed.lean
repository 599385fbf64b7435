import Mathlib.Data.List.Induction
import Retouch.Proofs.Text.Utf8

/-! Bytes that are read whole. Each character that is read stands for the very bytes that it was read
from, so bytes with nothing malformed in them are the bytes of their text, and of no other. -/
namespace Retouch.Utf8

/-- A byte in a range. -/
def Within (low high b : UInt8) : Prop := low.toNat ≤ b.toNat ∧ b.toNat ≤ high.toNat

/-- Bytes that complete a character: the next one in the range that is asked for, later ones in the
range of all later bytes. -/
def Completes (p : Pending) : List UInt8 → Prop
  | [] => False
  | b :: bs => bs.length + 1 = p.needed ∧ Within p.low p.high b ∧ ∀ c ∈ bs, Within 0x80 0xBF c

/-- The bits of a character with those of its later bytes. -/
def addBits (bits : Nat) (bs : List UInt8) : Nat :=
  bs.foldl (fun n b => 64 * n + (b.toNat - 0x80)) bits

lemma addBits_cons (bits : Nat) (b : UInt8) (bs : List UInt8) :
    addBits bits (b :: bs) = addBits (64 * bits + (b.toNat - 0x80)) bs := by
  rw [addBits, List.foldl_cons, addBits]

/-- The first bytes of a character, which bytes that complete it make all of it. -/
structure Begins (front : List UInt8) (p : Pending) : Prop where
  needed : 0 < p.needed
  encode : ∀ bs, Completes p bs →
    String.utf8EncodeChar (Char.ofNat (addBits p.bits bs)) = front ++ bs

/-- The bytes of a character that is read in part, if one is. -/
def Spells (bs : List UInt8) : Option Pending → Prop
  | none => bs = []
  | some p => Begins bs p

variable {bs front : List UInt8} {b : UInt8} {p : Pending} {t : Text}

/-! ## First bytes -/

lemma lead?_stray : ∀ n < 256, n < 0xC2 ∨ 0xF4 < n → lead? (UInt8.ofNat n) = none := by
  decide +kernel

/-- A first byte gives the bits of its character that it holds. -/
lemma lead?_cases (h : lead? b = some p) :
    (∃ a < 32, 2 ≤ a ∧ b.toNat = a + 192 ∧ p = ⟨a, 1, 0x80, 0xBF⟩) ∨
      (∃ a < 16, b.toNat = a + 224 ∧
        p = ⟨a, 2, if a = 0 then 0xA0 else 0x80, if a = 0xD then 0x9F else 0xBF⟩) ∨
      ∃ a < 5, b.toNat = a + 240 ∧
        p = ⟨a, 3, if a = 0 then 0x90 else 0x80, if a = 4 then 0x8F else 0xBF⟩ := by
  have hb := b.toNat_lt
  rw [← UInt8.ofNat_toNat (x := b)] at h
  obtain hstray | ⟨a, hlow, hhigh, ha⟩ | ⟨a, hhigh, ha⟩ | ⟨a, hhigh, ha⟩ :
      (b.toNat < 0xC2 ∨ 0xF4 < b.toNat) ∨ (∃ a, 2 ≤ a ∧ a < 32 ∧ b.toNat = a + 192) ∨
        (∃ a < 16, b.toNat = a + 224) ∨ ∃ a < 5, b.toNat = a + 240 := by
    by_cases htwo : b.toNat < 224
    · by_cases hstray : b.toNat < 0xC2
      · exact .inl (.inl hstray)
      · exact .inr (.inl ⟨b.toNat - 192, by omega, by omega, by omega⟩)
    · by_cases hthree : b.toNat < 240
      · exact .inr (.inr (.inl ⟨b.toNat - 224, by omega, by omega⟩))
      · by_cases hstray : 0xF4 < b.toNat
        · exact .inl (.inr hstray)
        · exact .inr (.inr (.inr ⟨b.toNat - 240, by omega, by omega⟩))
  · rw [lead?_stray _ hb hstray] at h
    cases h
  · rw [ha, lead?_two a hhigh hlow] at h
    exact .inl ⟨a, hhigh, hlow, ha, (Option.some.inj h).symm⟩
  · rw [ha, lead?_three a hhigh] at h
    exact .inr (.inl ⟨a, hhigh, ha, (Option.some.inj h).symm⟩)
  · rw [ha, lead?_four a hhigh] at h
    exact .inr (.inr ⟨a, hhigh, ha, (Option.some.inj h).symm⟩)

lemma toNat_val_ofNat {n : Nat} (h : n.isValidChar) : (Char.ofNat n).val.toNat = n := by
  rw [Char.ofNat, dif_pos h]
  rfl

lemma ofNat_eq {n : Nat} (h : n = b.toNat) : UInt8.ofNat n = b := by
  rw [h, UInt8.ofNat_toNat]

lemma utf8EncodeChar_two {x y : UInt8} {n : Nat} (hx : 194 ≤ x.toNat ∧ x.toNat < 224)
    (hy : 128 ≤ y.toNat ∧ y.toNat < 192) (hn : n = 64 * (x.toNat - 192) + (y.toNat - 128)) :
    String.utf8EncodeChar (Char.ofNat n) = [x, y] := by
  rw [String.utf8EncodeChar, toNat_val_ofNat (.inl (by omega))]
  rw [if_neg (by omega), if_pos (by omega), ofNat_eq (b := x) (by omega), ofNat_eq (b := y) (by omega)]

lemma utf8EncodeChar_three {x y z : UInt8} {n : Nat} (hx : 224 ≤ x.toNat ∧ x.toNat < 240)
    (hy : 128 ≤ y.toNat ∧ y.toNat < 192) (hz : 128 ≤ z.toNat ∧ z.toNat < 192)
    (hlow : x.toNat = 224 → 160 ≤ y.toNat) (hhigh : x.toNat = 237 → y.toNat < 160)
    (hn : n = 64 * (64 * (x.toNat - 224) + (y.toNat - 128)) + (z.toNat - 128)) :
    String.utf8EncodeChar (Char.ofNat n) = [x, y, z] := by
  have hvalid : n.isValidChar := by
    unfold Nat.isValidChar
    omega
  rw [String.utf8EncodeChar, toNat_val_ofNat hvalid]
  rw [if_neg (by omega), if_neg (by omega), if_pos (by omega), ofNat_eq (b := x) (by omega),
    ofNat_eq (b := y) (by omega), ofNat_eq (b := z) (by omega)]

lemma utf8EncodeChar_four {x y z w : UInt8} {n : Nat} (hx : 240 ≤ x.toNat ∧ x.toNat < 245)
    (hy : 128 ≤ y.toNat ∧ y.toNat < 192) (hz : 128 ≤ z.toNat ∧ z.toNat < 192)
    (hw : 128 ≤ w.toNat ∧ w.toNat < 192)
    (hlow : x.toNat = 240 → 144 ≤ y.toNat) (hhigh : x.toNat = 244 → y.toNat < 144)
    (hn : n = 64 * (64 * (64 * (x.toNat - 240) + (y.toNat - 128)) + (z.toNat - 128)) +
      (w.toNat - 128)) :
    String.utf8EncodeChar (Char.ofNat n) = [x, y, z, w] := by
  have hvalid : n.isValidChar := by
    unfold Nat.isValidChar
    omega
  rw [String.utf8EncodeChar, toNat_val_ofNat hvalid]
  rw [if_neg (by omega), if_neg (by omega), if_neg (by omega), ofNat_eq (b := x) (by omega),
    ofNat_eq (b := y) (by omega), ofNat_eq (b := z) (by omega), ofNat_eq (b := w) (by omega)]

lemma begins_of_lead? (h : lead? b = some p) : Begins [b] p := by
  have hlater {c : UInt8} (hc : Within 0x80 0xBF c) : 128 ≤ c.toNat ∧ c.toNat < 192 := by
    simp only [Within, UInt8.reduceToNat] at hc
    omega
  obtain ⟨a, hhigh, hlow, hb, rfl⟩ | ⟨a, ha, hb, rfl⟩ | ⟨a, ha, hb, rfl⟩ := lead?_cases h
  · refine ⟨Nat.one_pos, fun bs hbs => ?_⟩
    match bs, hbs with
    | [y], ⟨_, hy, _⟩ =>
      have hy := hlater hy
      exact utf8EncodeChar_two (by omega) hy (by simp [addBits, hb])
  · refine ⟨Nat.two_pos, fun bs hbs => ?_⟩
    match bs, hbs with
    | [y, z], ⟨_, hy, hz⟩ =>
      have hz := hlater (hz z List.mem_cons_self)
      have hrange : 128 ≤ y.toNat ∧ y.toNat < 192 ∧ (a = 0 → 160 ≤ y.toNat) ∧
          (a = 13 → y.toNat < 160) := by
        revert hy
        unfold Within
        split <;> split <;> intro hy
        all_goals
          simp only [UInt8.reduceToNat] at hy
          omega
      exact utf8EncodeChar_three (by omega) (by omega) hz (by omega) (by omega) (by simp [addBits, hb])
  · refine ⟨Nat.succ_pos 2, fun bs hbs => ?_⟩
    match bs, hbs with
    | [y, z, w], ⟨_, hy, hlast⟩ =>
      have hz := hlater (hlast z List.mem_cons_self)
      have hw := hlater (hlast w (by simp))
      have hrange : 128 ≤ y.toNat ∧ y.toNat < 192 ∧ (a = 0 → 144 ≤ y.toNat) ∧
          (a = 4 → y.toNat < 144) := by
        revert hy
        unfold Within
        split <;> split <;> intro hy
        all_goals
          simp only [UInt8.reduceToNat] at hy
          omega
      exact utf8EncodeChar_four (by omega) (by omega) hz hw (by omega) (by omega)
        (by simp [addBits, hb])

/-! ## Readings -/

lemma Begins.more (h : Begins front p) (hneeded : 1 < p.needed) (hb : Within p.low p.high b) :
    Begins (front ++ [b]) ⟨64 * p.bits + (b.toNat - 0x80), p.needed - 1, 0x80, 0xBF⟩ where
  needed := Nat.sub_pos_of_lt hneeded
  encode bs hbs := by
    rw [List.append_assoc, List.singleton_append, ← addBits_cons]
    refine h.encode (b :: bs) ⟨?_, hb, ?_⟩
    · cases bs with
      | nil => exact hbs.elim
      | cons c bs =>
        rw [List.length_cons, hbs.1]
        exact Nat.sub_add_cancel h.needed
    · cases bs with
      | nil => nofun
      | cons c bs => exact List.forall_mem_cons.2 hbs.2

lemma Begins.last (h : Begins front p) (hneeded : p.needed ≤ 1) (hb : Within p.low p.high b) :
    String.utf8EncodeChar (Char.ofNat (64 * p.bits + (b.toNat - 0x80))) = front ++ [b] :=
  h.encode [b] ⟨(Nat.le_antisymm hneeded h.needed).symm, hb, nofun⟩

lemma utf8EncodeChar_one (h : b < 0x80) : String.utf8EncodeChar (Char.ofNat b.toNat) = [b] := by
  have hb : b.toNat < 128 := UInt8.lt_iff_toNat_lt.1 h
  rw [String.utf8EncodeChar, toNat_val_ofNat (.inl (by omega)), if_pos (by omega), UInt8.ofNat_toNat]

lemma bytes_append_singleton (t : Text) (c : Char) :
    Text.bytes (t ++ [c]) = t.bytes ++ String.utf8EncodeChar c := by
  simp [Text.bytes]

/-- A byte that starts anew, after nothing malformed. -/
lemma spells_start {us : List (Option Char)} (hunits : (start us b).units = (t.map some).reverse) :
    ∃ front, us = (front.map some).reverse ∧
      ∃ tail, Text.bytes front ++ [b] = t.bytes ++ tail ∧ Spells tail (start us b).pending := by
  unfold start at hunits ⊢
  split at hunits
  · next hshort =>
    rw [if_pos hshort]
    cases t using List.reverseRecOn with
    | nil => cases hunits
    | append_singleton front c =>
      rw [List.map_append, List.reverse_append] at hunits
      obtain ⟨hc, hunits⟩ := List.cons.inj hunits
      refine ⟨front, hunits, [], ?_, rfl⟩
      rw [bytes_append_singleton, ← Option.some.inj hc, utf8EncodeChar_one hshort, List.append_nil]
  · next hlong =>
    rw [if_neg hlong]
    split at hunits
    · next p hp => exact ⟨t, hunits, [b], rfl, begins_of_lead? hp⟩
    · have hnone : none ∈ (t.map some).reverse := hunits ▸ List.mem_cons_self
      simp at hnone

/-- Bytes that are read without anything malformed are those of the characters that are read whole, and
those of the one that is read in part. -/
lemma spells_of_units (h : (bs.foldl step ⟨[], none⟩).units = (t.map some).reverse) :
    ∃ tail, bs = t.bytes ++ tail ∧ Spells tail (bs.foldl step ⟨[], none⟩).pending := by
  induction bs using List.reverseRecOn generalizing t with
  | nil =>
    obtain rfl : t = [] := by simpa using h
    exact ⟨[], rfl, rfl⟩
  | append_singleton bs b ih =>
    rw [List.foldl_append, List.foldl_cons, List.foldl_nil] at h ⊢
    generalize bs.foldl step ⟨[], none⟩ = r at ih h ⊢
    obtain ⟨us, pending⟩ := r
    unfold step at h ⊢
    cases pending with
    | none =>
      obtain ⟨front, hunits, tail, hbytes, htail⟩ := spells_start h
      obtain ⟨_, hbs, rfl⟩ := ih hunits
      rw [List.append_nil] at hbs
      exact ⟨tail, by rw [hbs, hbytes], htail⟩
    | some p =>
      dsimp only at h ⊢
      split at h
      · next hwithin =>
        rw [if_pos hwithin]
        have hwithin : Within p.low p.high b := by
          simpa [UInt8.le_iff_toNat_le, Within] using hwithin
        split at h
        · next hneeded =>
          rw [if_pos hneeded]
          cases t using List.reverseRecOn with
          | nil => cases h
          | append_singleton front c =>
            rw [List.map_append, List.reverse_append] at h
            obtain ⟨hc, hunits⟩ := List.cons.inj h
            obtain ⟨tail, rfl, htail⟩ := ih hunits
            refine ⟨[], ?_, rfl⟩
            rw [bytes_append_singleton, ← Option.some.inj hc, htail.last hneeded hwithin,
              List.append_nil, List.append_assoc]
        · next hneeded =>
          rw [if_neg hneeded]
          obtain ⟨tail, rfl, htail⟩ := ih h
          exact ⟨tail ++ [b], by rw [List.append_assoc], htail.more (Nat.lt_of_not_le hneeded) hwithin⟩
      · next hwithin =>
        rw [if_neg hwithin]
        obtain ⟨front, hunits, -⟩ := spells_start h
        have hnone : none ∈ (front.map some).reverse := hunits ▸ List.mem_cons_self
        simp at hnone

/-- Bytes are read as a text exactly if they are its bytes. -/
theorem decode?_eq_some_iff : decode? bs = some t ↔ bs = t.bytes := by
  constructor
  · intro h
    have hunits := units_of_decode? h
    rw [units] at hunits
    split at hunits
    · have hnone : none ∈ t.map some := by
        rw [← hunits]
        simp
      simp at hnone
    · next hpending =>
      obtain ⟨tail, hbs, htail⟩ := spells_of_units (List.reverse_eq_iff.1 hunits)
      rw [Option.not_isSome_iff_eq_none.1 hpending] at htail
      rw [hbs, htail, List.append_nil]
  · rintro rfl
    exact decode?_bytes t

end Retouch.Utf8
