import Mathlib.Data.List.Induction
import Retouch.Proofs.Literal.Escaping

/-! The style of what follows an opening quote. The quote is looked for among bytes, and so are the
backslashes before it; but no byte of a longer character is a backslash, so they are found where the text
has them. -/
namespace Retouch.Literal

/-- The last byte of a character is a backslash only if the character is one. -/
lemma exists_utf8EncodeChar_eq (c : Char) :
    ∃ front b, String.utf8EncodeChar c = front ++ [b] ∧ (b = 0x5C ↔ c = '\\') := by
  have hslash : c = '\\' ↔ c.val.toNat = 0x5C := by
    rw [Char.ext_iff, ← UInt32.toNat_inj]
    rfl
  have hbyte (n : Nat) : UInt8.ofNat n = 0x5C ↔ n % 256 = 0x5C := by
    rw [← UInt8.toNat_inj, UInt8.toNat_ofNat']
    rfl
  -- a byte that follows another one has its highest bit set
  have hlong (n : Nat) (h : ¬c.val.toNat ≤ 0x7F) : UInt8.ofNat (n % 0x40 + 0x80) = 0x5C ↔ c = '\\' := by
    rw [hbyte, hslash]
    omega
  simp only [String.utf8EncodeChar]
  split
  · refine ⟨[], _, rfl, ?_⟩
    rw [hbyte, hslash]
    omega
  · next h =>
    split
    · exact ⟨[_], _, rfl, hlong _ h⟩
    · split
      · exact ⟨[_, _], _, rfl, hlong _ h⟩
      · exact ⟨[_, _, _], _, rfl, hlong _ h⟩

lemma isEscaped_cons (b : UInt8) (bs : List UInt8) :
    Style.isEscaped (b :: bs) = (decide (b = 0x5C) && !Style.isEscaped bs) := by
  unfold Style.isEscaped
  rw [List.takeWhile_cons]
  by_cases hb : b = 0x5C
  · rw [if_pos (by simp [hb]), List.length_cons, hb, Bool.eq_iff_iff]
    simp only [beq_iff_eq, decide_true, Bool.true_and, Bool.not_eq_true', beq_eq_false_iff_ne]
    omega
  · rw [if_neg (by simp [hb])]
    simp [hb]

/-- Backslashes are counted alike among the bytes and in the text. -/
lemma isEscaped_reverse_bytes (t : Text) :
    Style.isEscaped t.bytes.reverse = decide (Escaping t) := by
  induction t using List.reverseRecOn with
  | nil => rfl
  | append_singleton t c ih =>
    obtain ⟨front, b, hchar, hb⟩ := exists_utf8EncodeChar_eq c
    have hbytes : (Text.bytes (t ++ [c])).reverse = b :: (front.reverse ++ (Text.bytes t).reverse) := by
      simp [Text.bytes, hchar]
    rw [hbytes, isEscaped_cons, Bool.eq_iff_iff, decide_eq_true_eq, escaping_append_singleton,
      Bool.and_eq_true, decide_eq_true_eq, hb]
    by_cases hc : c = '\\'
    · subst hc
      obtain rfl : front = [] := by
        have hlength := congrArg List.length hchar
        rw [List.length_append] at hlength
        exact List.length_eq_zero_iff.1 (Nat.succ.inj hlength).symm
      simp [ih]
    · simp [hc]

/-! ## The nearest quote -/

lemma ofQuote?_eq_some_iff {b : UInt8} {style : Style} :
    Style.ofQuote? b = some style ↔ ∃ c, style.quote? = some c ∧ String.utf8EncodeChar c = [b] := by
  constructor
  · intro h
    simp only [Style.ofQuote?, beq_iff_eq] at h
    split_ifs at h with hdouble hsingle htemplate
    all_goals
      cases h
      subst b
      exact ⟨_, rfl, rfl⟩
  · rintro ⟨c, hstyle, hbyte⟩
    cases style <;> cases hstyle <;> cases hbyte <;> rfl

/-- Every quote among the bytes is escaped where they follow some that are given nearest first. -/
def Shielded (before bs : List UInt8) : Prop :=
  ∀ u b v, bs = u ++ b :: v → (Style.ofQuote? b).isSome → Style.isEscaped (u.reverse ++ before) = true

lemma shielded_nil (before : List UInt8) : Shielded before [] := by
  intro u b v h
  simp at h

lemma Shielded.of_append {before as bs : List UInt8} (h : Shielded before (as ++ bs)) :
    Shielded before as := by
  rintro u b v rfl
  exact h u b (v ++ bs) (by simp)

/-- The search passes over bytes without a quote that is not escaped. -/
lemma nearest_append {reach : Nat} {before bs : List UInt8} (h : Shielded before bs) :
    Style.nearest reach (bs.reverse ++ before) = Style.nearest (reach - bs.length) before := by
  induction bs using List.reverseRecOn generalizing reach with
  | nil => rfl
  | append_singleton bs b ih =>
    rw [List.reverse_append, List.reverse_singleton, List.singleton_append, List.cons_append,
      List.length_append, List.length_singleton]
    cases reach with
    | zero => simp [Style.nearest]
    | succ reach =>
      have hpass : Style.nearest (reach + 1) (b :: (bs.reverse ++ before)) =
          Style.nearest reach (bs.reverse ++ before) := by
        cases hquote : Style.ofQuote? b with
        | none => simp [Style.nearest, hquote]
        | some style =>
          have hescaped := h bs b [] rfl (Option.isSome_of_eq_some hquote)
          simp [Style.nearest, hquote, hescaped]
      rw [hpass, ih h.of_append, Nat.add_sub_add_right]

/-- The style is found from everywhere behind an opening quote, as far as the search goes and as long as
no other quote stands between that is not escaped. -/
theorem around_quote {style : Style} {quote : Char} {b : UInt8} {front inner rest : Text} {n : Nat}
    (hstyle : style.quote? = some quote) (hbyte : String.utf8EncodeChar quote = [b])
    (hfront : ¬Escaping front) (hinner : Shielded (b :: front.bytes.reverse) inner.bytes)
    (hstart : front.size < n) (hstop : n ≤ front.size + 1 + inner.size) :
    Style.around (front ++ (quote :: inner ++ rest)) n =
      if n ≤ front.size + Style.reach then style else .plain := by
  obtain ⟨k, rfl⟩ : ∃ k, n = front.size + 1 + k := ⟨n - (front.size + 1), by omega⟩
  have htake : (Text.bytes (front ++ (quote :: inner ++ rest))).take (front.size + 1 + k) =
      front.bytes ++ b :: inner.bytes.take k := by
    have hsplit : Text.bytes (front ++ (quote :: inner ++ rest)) =
        (front.bytes ++ [b]) ++ (inner.bytes ++ rest.bytes) := by
      have hquote : Text.bytes (quote :: inner) = [b] ++ inner.bytes := by rw [← hbyte]; rfl
      rw [Text.bytes_append, Text.bytes_append, hquote]
      simp
    have hlength : (front.bytes ++ [b]).length = front.size + 1 := by simp
    have hk : k ≤ inner.bytes.length := by rw [Text.length_bytes]; omega
    rw [hsplit, ← hlength, List.take_length_add_append, List.take_append_of_le_length hk]
    simp
  have hprefix : Shielded (b :: front.bytes.reverse) (inner.bytes.take k) := by
    rw [← List.take_append_drop k inner.bytes] at hinner
    exact hinner.of_append
  have hlength : (inner.bytes.take k).length = k := by
    rw [List.length_take, Text.length_bytes]
    omega
  rw [Style.around, htake, List.reverse_append, List.reverse_cons, List.append_assoc,
    List.singleton_append, nearest_append hprefix, hlength]
  have hopen : Style.isEscaped front.bytes.reverse = false := by
    rw [isEscaped_reverse_bytes, decide_eq_false hfront]
  split
  · next hreach =>
    obtain ⟨m, hm⟩ : ∃ m, Style.reach - k = m + 1 := ⟨Style.reach - k - 1, by omega⟩
    simp [hm, Style.nearest, ofQuote?_eq_some_iff.2 ⟨quote, hstyle, hbyte⟩, hopen]
  · next hreach =>
    have hnone : Style.reach - k = 0 := by omega
    rw [hnone, Style.nearest]

/-- After a template's opening quote, text is in a template. -/
theorem around_template {front rest : Text} (hfront : ¬Escaping front) :
    Style.around (front ++ '\x60' :: rest) (front.size + 1) = .template := by
  have h := @around_quote .template '\x60' 0x60 front [] rest (front.size + 1) rfl rfl hfront
    (shielded_nil _) (by omega) (by simp)
  rwa [if_pos (Nat.add_le_add_left (by decide) _)] at h

end Retouch.Literal
