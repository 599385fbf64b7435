import Retouch.Proofs.Scan.Level
import Retouch.Proofs.Text.Found
import Retouch.Proofs.Text.Utf16

/-! Where string literals end. A scan of code that comes to a quote goes on where the literal ends, whatever
stands in it, and a literal ends right after the first quote of its kind that does not follow a backslash. -/
namespace Retouch

namespace Scan

/-- Where the literal ends in which a scan stands: right after the byte that brings it back to code. -/
def literalEndFrom : (lex : Lex) → (pos : Nat) → List UInt8 → Option Nat
  | .code, pos, _ => some pos
  | _, _, [] => none
  | lex, pos, b :: rest => literalEndFrom (lex.step b) (pos + 1) rest

/-- Offset just past the quote that closes the literal which opens at an offset. -/
def literalEnd? (bs : List UInt8) (start : Nat) : Option Nat :=
  match bs.drop start with
  | [] => none
  | quote :: rest => literalEndFrom (.literal quote) (start + 1) rest

variable {quote opener closer : UInt8} {inner bs rest : List UInt8} {lex : Lex} {depth pos stop : Nat}

lemma literalEndFrom_of_ne_code (h : lex ≠ .code) (pos : Nat) (b : UInt8) (rest : List UInt8) :
    literalEndFrom lex pos (b :: rest) = literalEndFrom (lex.step b) (pos + 1) rest := by
  cases lex with
  | code => exact absurd rfl h
  | literal quote => rfl
  | escape quote => rfl

lemma literalEndFrom_literal (quote : UInt8) (pos : Nat) (b : UInt8) (rest : List UInt8) :
    literalEndFrom (.literal quote) pos (b :: rest) =
      literalEndFrom (Lex.step (.literal quote) b) (pos + 1) rest := rfl

lemma le_of_literalEndFrom (h : literalEndFrom lex pos bs = some stop) : pos ≤ stop := by
  induction bs generalizing lex pos with
  | nil =>
    cases lex with
    | code => exact Nat.le_of_eq (Option.some.inj h)
    | literal quote => cases h
    | escape quote => cases h
  | cons b bs ih =>
    by_cases hcode : lex = .code
    · subst hcode
      exact Nat.le_of_eq (Option.some.inj h)
    · rw [literalEndFrom_of_ne_code hcode] at h
      exact Nat.le_of_succ_le (ih h)

lemma lt_of_literalEnd? {start : Nat} (h : literalEnd? bs start = some stop) : start < stop := by
  rw [literalEnd?] at h
  split at h
  · cases h
  · exact le_of_literalEndFrom h

lemma closerFrom_of_ne_code (h : lex ≠ .code) (depth pos : Nat) (b : UInt8) (rest : List UInt8) :
    closerFrom opener closer lex depth pos (b :: rest) =
      closerFrom opener closer (lex.step b) depth (pos + 1) rest := by
  cases lex with
  | code => exact absurd rfl h
  | literal quote => rfl
  | escape quote => rfl

/-- After a backslash the next byte is skipped, if there is one. -/
lemma closerFrom_escape (quote : UInt8) (depth pos : Nat) (bs : List UInt8) :
    closerFrom opener closer (.escape quote) depth pos (bs.drop pos) =
      closerFrom opener closer (.literal quote) depth (pos + 1) (bs.drop (pos + 1)) := by
  cases hb : bs[pos]? with
  | none =>
    have hle := List.getElem?_eq_none_iff.1 hb
    rw [List.drop_eq_nil_of_le hle, List.drop_eq_nil_of_le (Nat.le_succ_of_le hle)]
    rfl
  | some b =>
    rw [drop_of_getElem? hb]
    rfl

/-- The scan for a closer goes on where the literal ends. -/
lemma closerFrom_eq_bind (lex : Lex) (depth pos : Nat) (bs : List UInt8) :
    closerFrom opener closer lex depth pos bs = (literalEndFrom lex pos bs).bind fun stop =>
      closerFrom opener closer .code depth stop (bs.drop (stop - pos)) := by
  induction bs generalizing lex pos with
  | nil => cases lex <;> simp [literalEndFrom, closerFrom]
  | cons b bs ih =>
    by_cases hcode : lex = .code
    · subst hcode
      simp [literalEndFrom]
    · rw [closerFrom_of_ne_code hcode, ih, literalEndFrom_of_ne_code hcode]
      cases hstop : literalEndFrom (lex.step b) (pos + 1) bs with
      | none => rfl
      | some stop =>
        have hle := le_of_literalEndFrom hstop
        have hdrop : stop - pos = (stop - (pos + 1)) + 1 := by omega
        rw [Option.bind_some, Option.bind_some, hdrop, List.drop_succ_cons]

/-- The scan for a closer comes to a quote and goes on past the literal. -/
theorem closerFrom_quote {start : Nat} (hquote : isQuote quote = true) (h : bs.drop start = quote :: rest)
    (depth : Nat) : closerFrom opener closer .code depth start (bs.drop start) =
      (literalEnd? bs start).bind fun stop =>
        closerFrom opener closer .code depth stop (bs.drop stop) := by
  have hrest : rest = bs.drop (start + 1) := by rw [← List.drop_drop, h, List.drop_one, List.tail_cons]
  have hend : literalEnd? bs start = literalEndFrom (.literal quote) (start + 1) rest := by
    rw [literalEnd?, h]
  rw [hend, h, closerFrom_code, if_pos hquote, closerFrom_eq_bind]
  cases hstop : literalEndFrom (.literal quote) (start + 1) rest with
  | none => rfl
  | some stop =>
    have hle := le_of_literalEndFrom hstop
    have hsum : start + 1 + (stop - (start + 1)) = stop := by omega
    rw [Option.bind_some, Option.bind_some, hrest, List.drop_drop, hsum]

lemma literalEndFrom_inside (h : Inside quote inner) (pos : Nat) (rest : List UInt8) :
    literalEndFrom (.literal quote) pos (inner ++ rest) =
      literalEndFrom (.literal quote) (pos + inner.length) rest := by
  induction h generalizing pos with
  | nil => rfl
  | @byte b bs hslash hquote _ ih =>
    rw [List.cons_append, literalEndFrom_literal]
    have hstep : Lex.step (.literal quote) b = .literal quote := by simp [Lex.step, hslash, hquote]
    rw [hstep, ih, List.length_cons, Nat.add_assoc, Nat.add_comm 1]
  | @escaped b bs _ ih =>
    have hstep : literalEndFrom (.literal quote) pos (0x5C :: b :: bs ++ rest) =
        literalEndFrom (.literal quote) (pos + 1 + 1) (bs ++ rest) := rfl
    rw [hstep, ih, List.length_cons, List.length_cons]
    congr 1
    omega

lemma literalEndFrom_close (hquote : isQuote quote = true) (h : Inside quote inner) (pos : Nat)
    (rest : List UInt8) : literalEndFrom (.literal quote) pos (inner ++ quote :: rest) =
      some (pos + inner.length + 1) := by
  have hslash := ne_backslash_of_isQuote hquote
  have hstep : Lex.step (.literal quote) quote = .code := by simp [Lex.step, hslash]
  rw [literalEndFrom_inside h, literalEndFrom_literal, hstep]
  cases rest <;> rfl

/-- A literal ends after the quote that closes it. -/
theorem literalEnd?_literal (hquote : isQuote quote = true) (h : Inside quote inner)
    (before after : List UInt8) :
    literalEnd? (before ++ (quote :: (inner ++ [quote]) ++ after)) before.length =
      some (before.length + (inner.length + 2)) := by
  have hend := literalEndFrom_close hquote h (before.length + 1) after
  rw [literalEnd?, List.drop_left]
  simp only [List.cons_append, List.append_assoc, List.nil_append]
  rw [hend]
  exact congrArg some (by omega)

/-- The scan for a closer passes over a literal. -/
theorem closerFrom_literal (hquote : isQuote quote = true) (h : Inside quote inner) (depth pos : Nat)
    (after : List UInt8) :
    closerFrom opener closer .code depth pos (quote :: (inner ++ [quote]) ++ after) =
      closerFrom opener closer .code depth (pos + (inner.length + 2)) after := by
  have hlength : pos + 1 + inner.length + 1 - (pos + 1) = (inner ++ [quote]).length := by
    rw [List.length_append]
    simp
    omega
  have hsplit : inner ++ quote :: after = (inner ++ [quote]) ++ after := by simp
  rw [List.cons_append, closerFrom_code, if_pos hquote, List.append_assoc, List.singleton_append,
    closerFrom_eq_bind, literalEndFrom_close hquote h, Option.bind_some, hlength, hsplit, List.drop_left]
  congr 1
  omega

/-! ## Characters in a literal -/

lemma inside_flatMap {α : Type} {as : List α} {f : α → List UInt8} (h : ∀ a ∈ as, Inside quote (f a)) :
    Inside quote (as.flatMap f) := by
  induction as with
  | nil => exact .nil
  | cons a as ih =>
    obtain ⟨ha, has⟩ := List.forall_mem_cons.1 h
    exact ha.append (ih has)

/-- A character that is neither a backslash nor the quote has neither byte. -/
lemma inside_utf8EncodeChar {c q : Char} {quote : UInt8} (hslash : c ≠ '\\') (hne : c ≠ q)
    (hquote : quote.toNat = q.toNat) (hascii : q.toNat < 0x80) : Inside quote (String.utf8EncodeChar c) := by
  refine inside_of_forall fun b hb => ⟨?_, ?_⟩
  · rintro rfl
    exact hslash (Text.eq_of_mem_utf8EncodeChar hb (by decide) rfl)
  · rintro rfl
    exact hne (Text.eq_of_mem_utf8EncodeChar hb hascii hquote)

/-- An escape of a sixteen-bit unit is a backslash and characters that are no quotes. -/
lemma inside_unitEscape (hquote : isQuote quote = true) {u : Nat} (hu : u < 0x10000) :
    Inside quote (Text.bytes (Text.unitEscape u)) := by
  have hdigits : ∀ k < 16, ∀ b ∈ String.utf8EncodeChar k.digitChar, b ≠ 0x5C ∧ isQuote b = false := by
    decide +kernel
  have hdigit {k : Nat} (hk : k < 16) : Inside quote (String.utf8EncodeChar k.digitChar) := by
    refine inside_of_forall fun b hb => ⟨(hdigits k hk b hb).1, ?_⟩
    rintro rfl
    exact absurd hquote (by simp [(hdigits k hk b hb).2])
  have hbytes : Text.bytes (Text.unitEscape u) = [0x5C, 0x75] ++ Text.bytes (Text.hexPadded 4 u) := rfl
  rw [hbytes, Text.hexPadded_four hu]
  refine (Inside.escaped .nil).append ?_
  simp only [Text.bytes, List.flatMap_cons, List.flatMap_nil, List.append_nil]
  exact (hdigit (by omega)).append ((hdigit (by omega)).append ((hdigit (by omega)).append
    (hdigit (by omega))))

end Scan
end Retouch
