import Retouch.Bundle
import Retouch.Proofs.Text.WellFormed

/-! Bundles and their bytes. Bytes are decoded exactly if they are UTF-8, and what they are decoded to is
encoded to the same bytes again. -/
namespace Retouch

namespace Utf8

/-- The bytes of a text are well-formed, and there are no others that are. -/
lemma isValidUTF8_iff {bs : List UInt8} : bs.toByteArray.IsValidUTF8 ↔ ∃ t, bs = Text.bytes t := by
  constructor
  · rintro ⟨t, ht⟩
    refine ⟨t, ?_⟩
    have hdata := congrArg (·.data.toList) ht
    simpa [List.utf8Encode, Text.bytes] using hdata
  · rintro ⟨t, rfl⟩
    exact ⟨t, rfl⟩

/-- No byte has its five highest bits set. -/
lemma toNat_lt_of_mem_bytes {t : Text} {b : UInt8} (h : b ∈ Text.bytes t) : b.toNat < 0xF8 := by
  obtain ⟨c, -, hb⟩ := List.mem_flatMap.1 h
  have hbyte (n : Nat) (hn : n % 256 < 0xF8) : (UInt8.ofNat n).toNat < 0xF8 := by
    rwa [UInt8.toNat_ofNat']
  simp only [String.utf8EncodeChar] at hb
  split at hb
  · obtain rfl := List.mem_singleton.1 hb
    exact hbyte _ (by omega)
  · split at hb
    · simp only [List.mem_cons, List.not_mem_nil, or_false] at hb
      rcases hb with rfl | rfl <;> exact hbyte _ (by omega)
    · split at hb <;> simp only [List.mem_cons, List.not_mem_nil, or_false] at hb
      · rcases hb with rfl | rfl | rfl <;> exact hbyte _ (by omega)
      · rcases hb with rfl | rfl | rfl | rfl <;> exact hbyte _ (by omega)

end Utf8

namespace Bundle

variable {bs rest : List UInt8} {b : Bundle} {t : Text}

/-- A text whose bytes start with the mark starts with its character. -/
lemma head?_of_bytes_eq (h : Text.bytes t = mark ++ rest) : t.head? = some '\ufeff' := by
  have hmark : mark.foldl Utf8.step ⟨[], none⟩ = ⟨[some '\ufeff'].reverse, none⟩ := rfl
  have hunits := Utf8.units_bytes t
  rw [h, Utf8.units_append hmark] at hunits
  cases t with
  | nil => cases hunits
  | cons c t => rw [List.head?_cons, ← (List.cons.inj hunits).1]

lemma read_eq_ok_iff {marked : Bool} :
    decode.read marked bs = .ok b ↔ b.marked = marked ∧ bs = b.text.bytes := by
  rw [decode.read, ← Utf8.decode?_eq_some_iff]
  cases b with
  | mk text marked' =>
    cases Utf8.decode? bs with
    | none => simp
    | some found => simp [and_comm, eq_comm]

/-- No bundle is encoded to bytes that start with one of the marks of other encodings. -/
lemma encode_ne_cons {x : UInt8} (hx : 0xF8 ≤ x.toNat) : b.encode ≠ x :: rest := by
  intro h
  have hmem : x ∈ b.encode := h ▸ List.mem_cons_self
  rcases List.mem_append.1 hmem with hmark | htext
  · split at hmark
    · simp only [mark, List.mem_cons, List.not_mem_nil, or_false] at hmark
      rcases hmark with rfl | rfl | rfl <;> revert hx <;> decide
    · cases hmark
  · have := Utf8.toNat_lt_of_mem_bytes htext
    omega

lemma encode_mk_true : (Bundle.mk t true).encode = mark ++ t.bytes := rfl

lemma encode_mk_false : (Bundle.mk t false).encode = t.bytes := rfl

/-- What bytes are decoded to is the one bundle that is encoded to them and whose text does not start
with a mark, unless the bundle is marked itself. -/
lemma decode_eq_ok_iff : decode bs = .ok b ↔
    b.encode = bs ∧ (b.text.head? ≠ some '\ufeff' ∨ b.marked = true) := by
  obtain ⟨text, marked⟩ := b
  unfold decode
  split
  · simp [encode_ne_cons (x := 0xFF) (by decide)]
  · simp [encode_ne_cons (x := 0xFE) (by decide)]
  · next rest =>
    rw [read_eq_ok_iff]
    cases marked with
    | true => simp [encode_mk_true, mark, eq_comm]
    | false =>
      refine iff_of_false (by simp) fun ⟨hbytes, hhead⟩ => ?_
      exact hhead.elim (absurd (head?_of_bytes_eq hbytes)) nofun
  · next hunmarked =>
    rw [read_eq_ok_iff]
    cases marked with
    | true => exact iff_of_false (by simp) fun ⟨hbytes, _⟩ => hunmarked _ hbytes.symm
    | false =>
      refine ⟨fun ⟨_, hbytes⟩ => ⟨hbytes.symm, .inl fun hhead => ?_⟩, fun h => ⟨rfl, h.1.symm⟩⟩
      obtain ⟨rest, rfl⟩ := List.head?_eq_some_iff.1 hhead
      exact hunmarked _ hbytes

/-- Bytes are decoded exactly if they are UTF-8. What they are decoded to is the one bundle that is
encoded to them and whose text does not start with a mark, unless the bundle is marked itself. -/
theorem decode_eq_ok_iff_encode (bs : List UInt8) :
    ((∃ b, decode bs = .ok b) ↔ bs.toByteArray.IsValidUTF8) ∧
      ∀ b : Bundle, decode bs = .ok b ↔
        b.encode = bs ∧ (b.text.head? ≠ some '\ufeff' ∨ b.marked = true) := by
  refine ⟨⟨?_, fun hvalid => ?_⟩, fun b => decode_eq_ok_iff⟩
  · rintro ⟨⟨text, marked⟩, hb⟩
    obtain ⟨hbytes, -⟩ := decode_eq_ok_iff.1 hb
    cases marked with
    | true => exact Utf8.isValidUTF8_iff.2 ⟨'\ufeff' :: text, hbytes.symm⟩
    | false => exact Utf8.isValidUTF8_iff.2 ⟨text, hbytes.symm⟩
  · obtain ⟨t, rfl⟩ := Utf8.isValidUTF8_iff.1 hvalid
    by_cases hhead : t.head? = some '\ufeff'
    · obtain ⟨rest, rfl⟩ := List.head?_eq_some_iff.1 hhead
      exact ⟨⟨rest, true⟩, decode_eq_ok_iff.2 ⟨rfl, .inr rfl⟩⟩
    · exact ⟨⟨t, false⟩, decode_eq_ok_iff.2 ⟨rfl, .inl hhead⟩⟩

/-- Of two marks, the second is part of the text. -/
example : (decode (mark ++ mark)).toOption = some ⟨['\ufeff'], true⟩ := by decide

end Bundle
end Retouch
