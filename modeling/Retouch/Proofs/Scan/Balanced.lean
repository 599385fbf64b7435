import Mathlib.Order.Bounds.Basic
import Retouch.Proofs.Scan.Literal

/-! The closer of a bracket. From the bracket on, bytes are told apart as string literals and bytes of code, and the
scan finds the least offset up to which the latter hold as many openers as closers. It is told here also as a loop over
offsets, which jumps over the byte after a backslash and counts in integers: every round moves on, so the loop ends, and
once the bracket is open its count stays positive. -/
namespace Retouch.Scan

/-! ## Bytes of code -/

/-- The bytes from an offset up to `stop` are whole string literals and bytes of code, here the latter in their
order. -/
inductive Splits (bs : List UInt8) (stop : Nat) : (pos : Nat) → (code : List UInt8) → Prop
  | done : Splits bs stop stop []
  | byte {pos : Nat} {b : UInt8} {code : List UInt8} : bs[pos]? = some b → isQuote b = false →
      Splits bs stop (pos + 1) code → Splits bs stop pos (b :: code)
  | literal {pos next : Nat} {quote : UInt8} {code : List UInt8} : bs[pos]? = some quote → isQuote quote = true →
      literalEnd? bs pos = some next → Splits bs stop next code → Splits bs stop pos code

/-- The bytes of code between two offsets hold as many openers as closers. -/
structure Balances (t : Text) (opener closer : UInt8) (start stop : Nat) : Prop where
  lt : start < stop
  even : ∃ code, Splits t.bytes stop start code ∧ code.count opener = code.count closer

variable {t : Text} {bs code : List UInt8} {b opener closer : UInt8} {depth pos start stop n : Nat}

lemma Splits.le (h : Splits bs stop pos code) : pos ≤ stop := by
  induction h with
  | done => exact Nat.le_refl _
  | byte _ _ _ ih => exact Nat.le_of_succ_le ih
  | literal _ _ hend _ ih => exact Nat.le_trans (Nat.le_of_lt (lt_of_literalEnd? hend)) ih

/-- A byte that is no quote is the first byte of code. -/
lemma splits_byte_iff (hb : bs[pos]? = some b) (hquote : isQuote b = false) (hlt : pos < stop) :
    Splits bs stop pos code ↔ ∃ rest, code = b :: rest ∧ Splits bs stop (pos + 1) rest := by
  constructor
  · intro h
    cases h with
    | done => exact absurd hlt (Nat.lt_irrefl _)
    | byte hb' _ hrest =>
      obtain rfl := Option.some.inj (hb.symm.trans hb')
      exact ⟨_, rfl, hrest⟩
    | literal hb' hquote' _ _ =>
      obtain rfl := Option.some.inj (hb.symm.trans hb')
      rw [hquote] at hquote'
      cases hquote'
  · rintro ⟨rest, rfl, hrest⟩
    exact .byte hb hquote hrest

/-- After the opener, the bytes of code have to hold one closer more. -/
lemma balances_iff (hopener : isQuote opener = false) (hne : opener ≠ closer) (hstart : t.bytes[start]? = some opener) :
    Balances t opener closer start stop ↔
      ∃ code, Splits t.bytes stop (start + 1) code ∧ code.count opener + 1 = code.count closer := by
  constructor
  · rintro ⟨hlt, code, hcode, hcount⟩
    obtain ⟨rest, rfl, hrest⟩ := (splits_byte_iff hstart hopener hlt).1 hcode
    rw [List.count_cons_self, List.count_cons_of_ne hne] at hcount
    exact ⟨rest, hrest, hcount⟩
  · rintro ⟨code, hcode, hcount⟩
    refine ⟨hcode.le, opener :: code, .byte hstart hopener hcode, ?_⟩
    rw [List.count_cons_self, List.count_cons_of_ne hne, hcount]

/-! ## What the scan finds -/

/-- Up to where more brackets close than were open and have opened, the scan has found its closer. -/
lemma Splits.exists_closerFrom_le (hne : opener ≠ closer) (h : Splits bs stop pos code)
    (hcount : depth + code.count opener < code.count closer) :
    ∃ found ≤ stop, closerFrom opener closer .code (depth + 1) pos (bs.drop pos) = some found := by
  induction h generalizing depth with
  | done => simp at hcount
  | @byte pos b code hb hquote hrest ih =>
    rw [drop_of_getElem? hb]
    by_cases hopener : b = opener
    · subst hopener
      rw [List.count_cons_self, List.count_cons_of_ne hne] at hcount
      rw [closerFrom_opener hquote]
      exact ih (by omega)
    · by_cases hcloser : b = closer
      · subst hcloser
        rw [List.count_cons_self, List.count_cons_of_ne hopener] at hcount
        rw [closerFrom_closer hquote hne]
        cases depth with
        | zero => exact ⟨pos + 1, hrest.le, rfl⟩
        | succ depth => exact ih (by omega)
      · rw [List.count_cons_of_ne hopener, List.count_cons_of_ne hcloser] at hcount
        rw [closerFrom_byte hquote hopener hcloser]
        exact ih hcount
  | @literal pos next quote code hb hquote hend hrest ih =>
    rw [closerFrom_quote hquote (drop_of_getElem? hb), hend]
    exact ih hcount

/-- What the scan has passed when it finds its closer splits, with a closer for every bracket that was open or has
opened. -/
lemma exists_splits_of_closerFrom (hne : opener ≠ closer)
    (h : closerFrom opener closer .code (depth + 1) pos (bs.drop pos) = some stop) :
    ∃ code, Splits bs stop pos code ∧ depth + 1 + code.count opener = code.count closer := by
  -- The induction is on how many bytes are left, since a literal is passed in one go.
  induction hleft : bs.length - pos using Nat.strong_induction_on generalizing depth pos with
  | _ left ih =>
    subst hleft
    cases hb : bs[pos]? with
    | none =>
      rw [List.drop_eq_nil_of_le (List.getElem?_eq_none_iff.1 hb)] at h
      cases h
    | some b =>
      have hlt : pos < bs.length := (List.getElem?_eq_some_iff.1 hb).1
      cases hquote : isQuote b with
      | true =>
        rw [closerFrom_quote hquote (drop_of_getElem? hb)] at h
        obtain ⟨next, hend, h⟩ := Option.bind_eq_some_iff.1 h
        have hnext := lt_of_literalEnd? hend
        obtain ⟨code, hcode, hcount⟩ := ih _ (by omega) h rfl
        exact ⟨code, .literal hb hquote hend hcode, hcount⟩
      | false =>
        have hleft : bs.length - (pos + 1) < bs.length - pos := by omega
        rw [drop_of_getElem? hb] at h
        by_cases hopener : b = opener
        · subst hopener
          rw [closerFrom_opener hquote] at h
          obtain ⟨code, hcode, hcount⟩ := ih _ hleft h rfl
          refine ⟨b :: code, .byte hb hquote hcode, ?_⟩
          rw [List.count_cons_self, List.count_cons_of_ne hne]
          omega
        · by_cases hcloser : b = closer
          · subst hcloser
            rw [closerFrom_closer hquote hne] at h
            cases depth with
            | zero =>
              obtain rfl := Option.some.inj h
              refine ⟨[b], .byte hb hquote .done, ?_⟩
              rw [List.count_singleton_self, List.count_cons_of_ne hopener, List.count_nil]
            | succ depth =>
              obtain ⟨code, hcode, hcount⟩ := ih _ hleft h rfl
              refine ⟨b :: code, .byte hb hquote hcode, ?_⟩
              rw [List.count_cons_self, List.count_cons_of_ne hopener]
              omega
          · rw [closerFrom_byte hquote hopener hcloser] at h
            obtain ⟨code, hcode, hcount⟩ := ih _ hleft h rfl
            refine ⟨b :: code, .byte hb hquote hcode, ?_⟩
            rw [List.count_cons_of_ne hopener, List.count_cons_of_ne hcloser, hcount]

/-- The scan starts behind the opener with one bracket open. -/
lemma balancedEnd?_eq_closerFrom (hopener : isQuote opener = false) (hstart : t.bytes[start]? = some opener) :
    balancedEnd? t start opener closer =
      closerFrom opener closer .code 1 (start + 1) (t.bytes.drop (start + 1)) := by
  rw [balancedEnd?, drop_of_getElem? hstart, ← closerFrom_opener hopener]
  exact if_pos (beq_self_eq_true _)

lemma Balances.exists_balancedEnd?_le (hopener : isQuote opener = false) (hne : opener ≠ closer)
    (hstart : t.bytes[start]? = some opener) (h : Balances t opener closer start stop) :
    ∃ found ≤ stop, balancedEnd? t start opener closer = some found := by
  obtain ⟨code, hcode, hcount⟩ := (balances_iff hopener hne hstart).1 h
  rw [balancedEnd?_eq_closerFrom hopener hstart]
  exact hcode.exists_closerFrom_le hne (by omega)

lemma isLeast_of_balancedEnd? (hopener : isQuote opener = false) (hne : opener ≠ closer)
    (hstart : t.bytes[start]? = some opener) (h : balancedEnd? t start opener closer = some stop) :
    IsLeast {stop | Balances t opener closer start stop} stop := by
  constructor
  · rw [balancedEnd?_eq_closerFrom hopener hstart] at h
    obtain ⟨code, hcode, hcount⟩ := exists_splits_of_closerFrom hne h
    exact (balances_iff hopener hne hstart).2 ⟨code, hcode, by omega⟩
  · intro other hother
    obtain ⟨found, hle, hfound⟩ := Balances.exists_balancedEnd?_le hopener hne hstart hother
    obtain rfl := Option.some.inj (h.symm.trans hfound)
    exact hle

/-! ## Other texts -/

/-- The scan has not seen what stands behind the closer. -/
lemma balancedEnd?_of_take_eq {t' : Text} (hopener : isQuote opener = false) (hcloser : isQuote closer = false)
    (hne : opener ≠ closer) (h : balancedEnd? t start opener closer = some stop)
    (htake : t'.bytes.take stop = t.bytes.take stop) : balancedEnd? t' start opener closer = some stop := by
  obtain ⟨front, body, rest, hbytes, rfl, rfl, hbody⟩ := (balancedEnd?_eq_some_iff hopener hcloser hne).1 h
  have hsplit : t.bytes = (front ++ opener :: (body ++ [closer])) ++ rest := by simp [hbytes]
  have hlength : (front ++ opener :: (body ++ [closer])).length = front.length + body.length + 2 := by
    simp only [List.length_append, List.length_cons, List.length_nil]
    omega
  rw [hsplit, List.take_left' hlength] at htake
  refine (balancedEnd?_eq_some_iff hopener hcloser hne).2
    ⟨front, body, t'.bytes.drop (front.length + body.length + 2), ?_, rfl, rfl, hbody⟩
  rw [← List.take_append_drop (front.length + body.length + 2) t'.bytes, htake, List.drop_left' hlength]
  simp

lemma closerFrom_add (lex : Lex) (depth offset pos : Nat) (bs : List UInt8) :
    closerFrom opener closer lex depth (offset + pos) bs =
      (closerFrom opener closer lex depth pos bs).map (offset + ·) := by
  induction bs generalizing lex depth pos with
  | nil => cases lex <;> rfl
  | cons b bs ih =>
    by_cases hcode : lex = .code
    · subst hcode
      simp only [closerFrom_code, Nat.add_assoc, ih]
      split_ifs
      · rfl
      · rfl
      · rcases depth with _ | _ | depth <;> rfl
      · rfl
    · rw [closerFrom_of_ne_code hcode, closerFrom_of_ne_code hcode, Nat.add_assoc, ih]

/-- Text before the bracket moves the offset that the scan finds. -/
lemma balancedEnd?_append (front t : Text) (start : Nat) (opener closer : UInt8) :
    balancedEnd? (front ++ t) (front.size + start) opener closer =
      (balancedEnd? t start opener closer).map (front.size + ·) := by
  have hdrop : (front ++ t).bytes.drop (front.size + start) = t.bytes.drop start := by
    rw [Text.bytes_append, ← Text.length_bytes front, List.drop_append]
    simp
  rw [balancedEnd?, balancedEnd?, hdrop]
  split_ifs
  · exact closerFrom_add _ _ _ _ _
  · rfl

/-! ## Round by round -/

/-- How far the scan has come. In a literal it looks for the quote that closes it. -/
structure Progress where
  pos : Nat
  depth : Int
  quote? : Option UInt8

namespace Progress

/-- One round of the scan. An answer ends it, as an error would. -/
def round (bs : List UInt8) (opener closer : UInt8) (p : Progress) : Except (Option Nat) Progress :=
  match bs[p.pos]?, p.quote? with
  | none, _ => .error none
  | some b, some quote =>
    if b == 0x5C then .ok { p with pos := p.pos + 2 }
    else if b == quote then .ok { p with pos := p.pos + 1, quote? := none }
    else .ok { p with pos := p.pos + 1 }
  | some b, none =>
    if isQuote b then .ok { p with pos := p.pos + 1, quote? := some b }
    else if b == opener then .ok { p with pos := p.pos + 1, depth := p.depth + 1 }
    else if b == closer then
      let left := p.depth - 1
      if left = 0 then .error (some (p.pos + 1)) else .ok { p with pos := p.pos + 1, depth := left }
    else .ok { p with pos := p.pos + 1 }

def rounds (bs : List UInt8) (opener closer : UInt8) : (n : Nat) → Progress → Except (Option Nat) Progress
  | 0, p => .ok p
  | n + 1, p => p.round bs opener closer >>= rounds bs opener closer n

/-- What the scan finds from here on. -/
def found (bs : List UInt8) (opener closer : UInt8) (p : Progress) : Option Nat :=
  closerFrom opener closer (p.quote?.elim .code .literal) p.depth.toNat p.pos (bs.drop p.pos)

variable {p p' : Progress}

lemma found_mk (k : Nat) (quote? : Option UInt8) : found bs opener closer ⟨pos, k + 1, quote?⟩ =
    closerFrom opener closer (quote?.elim .code .literal) (k + 1) pos (bs.drop pos) := rfl

/-- In a literal a round moves on and leaves what the scan finds as it was. -/
lemma exists_round_literal (hb : bs[pos]? = some b) (k : Nat) (quote : UInt8) :
    ∃ p', round bs opener closer ⟨pos, k + 1, some quote⟩ = .ok p' ∧ pos < p'.pos ∧ p'.depth = k + 1 ∧
      p'.found bs opener closer = found bs opener closer ⟨pos, k + 1, some quote⟩ := by
  have hscan : found bs opener closer ⟨pos, k + 1, some quote⟩ =
      closerFrom opener closer (Lex.step (.literal quote) b) (k + 1) (pos + 1) (bs.drop (pos + 1)) := by
    rw [found_mk, drop_of_getElem? hb]
    rfl
  rw [hscan]
  by_cases hslash : b = 0x5C
  · refine ⟨⟨pos + 2, k + 1, some quote⟩, by simp [round, hb, hslash], by simp, rfl, ?_⟩
    have hstep : Lex.step (.literal quote) b = .escape quote := by simp [Lex.step, hslash]
    rw [hstep, closerFrom_escape]
    rfl
  · by_cases hquote : b = quote
    · subst hquote
      refine ⟨⟨pos + 1, k + 1, none⟩, by simp [round, hb, hslash], by simp, rfl, ?_⟩
      have hstep : Lex.step (.literal b) b = .code := by simp [Lex.step, hslash]
      rw [hstep]
      rfl
    · refine ⟨⟨pos + 1, k + 1, some quote⟩, by simp [round, hb, hslash, hquote], by simp, rfl, ?_⟩
      have hstep : Lex.step (.literal quote) b = .literal quote := by simp [Lex.step, hslash, hquote]
      rw [hstep]
      rfl

/-- With a bracket open, a round gives what the scan finds, or moves on with a bracket still open. -/
lemma round_spec (bs : List UInt8) (opener closer : UInt8) (h : 0 < p.depth) :
    p.round bs opener closer = .error (p.found bs opener closer) ∨
      ∃ p', p.round bs opener closer = .ok p' ∧ p.pos < bs.length ∧ p.pos < p'.pos ∧ 0 < p'.depth ∧
        p'.found bs opener closer = p.found bs opener closer := by
  obtain ⟨pos, depth, quote?⟩ := p
  obtain ⟨k, rfl⟩ : ∃ k : Nat, depth = k + 1 := ⟨(depth - 1).toNat, by simp only at h; omega⟩
  cases hb : bs[pos]? with
  | none =>
    have hnil := List.drop_eq_nil_of_le (List.getElem?_eq_none_iff.1 hb)
    left
    rw [found_mk, hnil]
    cases quote? <;> simp [round, hb, closerFrom]
  | some b =>
    have hlt : pos < bs.length := (List.getElem?_eq_some_iff.1 hb).1
    have hpos : pos < pos + 1 := Nat.lt_succ_self pos
    cases quote? with
    | some quote =>
      obtain ⟨p', hround, hpos, hdepth, hfound⟩ := exists_round_literal hb k quote
      exact .inr ⟨p', hround, hlt, hpos, hdepth ▸ h, hfound⟩
    | none =>
      rw [found_mk, drop_of_getElem? hb, Option.elim_none, closerFrom_code]
      simp only [round, hb]
      split_ifs with hquote hopener hcloser hleft
      · exact .inr ⟨_, rfl, hlt, hpos, h, rfl⟩
      · exact .inr ⟨_, rfl, hlt, hpos, Int.lt_add_one_of_le (Int.le_of_lt h), found_mk (k + 1) none⟩
      · obtain rfl : k = 0 := by omega
        exact .inl rfl
      · obtain ⟨l, rfl⟩ : ∃ l, k = l + 1 := ⟨k - 1, by omega⟩
        have hdepth : ((l + 1 : Nat) : Int) + 1 - 1 = l + 1 := by omega
        rw [hdepth]
        exact .inr ⟨_, rfl, hlt, hpos, by simp only; omega, found_mk l none⟩
      · exact .inr ⟨_, rfl, hlt, hpos, h, rfl⟩

/-- A bracket that is open stays open as long as there is no answer. -/
lemma depth_pos_of_rounds (h : 0 < p.depth) (hrounds : p.rounds bs opener closer n = .ok p') : 0 < p'.depth := by
  induction n generalizing p with
  | zero =>
    obtain rfl := Except.ok.inj hrounds
    exact h
  | succ n ih =>
    rw [rounds] at hrounds
    rcases round_spec bs opener closer h with hanswer | ⟨next, hround, -, -, hdepth, -⟩
    · rw [hanswer] at hrounds
      cases hrounds
    · rw [hround] at hrounds
      exact ih hdepth hrounds

/-- After more rounds than bytes are left, the scan has given what it finds. -/
lemma rounds_eq_found (h : 0 < p.depth) (hleft : bs.length - p.pos < n) :
    p.rounds bs opener closer n = .error (p.found bs opener closer) := by
  induction n generalizing p with
  | zero => exact absurd hleft (Nat.not_lt_zero _)
  | succ n ih =>
    rw [rounds]
    rcases round_spec bs opener closer h with hanswer | ⟨next, hround, hlt, hpos, hdepth, hfound⟩
    · rw [hanswer]
      rfl
    · rw [hround, ← hfound]
      exact ih hdepth (by omega)

/-- The first round opens the bracket. -/
lemma rounds_succ (hopener : isQuote opener = false) (hstart : bs[start]? = some opener) (n : Nat) :
    rounds bs opener closer (n + 1) ⟨start, 0, none⟩ = rounds bs opener closer n ⟨start + 1, 1, none⟩ := by
  have hround : round bs opener closer ⟨start, 0, none⟩ = .ok ⟨start + 1, 1, none⟩ := by
    simp [round, hstart, hopener]
  rw [rounds, hround]
  rfl

/-- The loop gives what the scan finds. -/
lemma rounds_eq_balancedEnd? (hopener : isQuote opener = false) (hstart : t.bytes[start]? = some opener)
    (hleft : t.size - start < n) :
    rounds t.bytes opener closer n ⟨start, 0, none⟩ = .error (balancedEnd? t start opener closer) := by
  obtain ⟨hlt, -⟩ := List.getElem?_eq_some_iff.1 hstart
  rw [← Text.length_bytes] at hleft
  cases n with
  | zero => exact absurd hleft (Nat.not_lt_zero _)
  | succ n =>
    have hrest : t.bytes.length - (start + 1) < n := by omega
    rw [rounds_succ hopener hstart, rounds_eq_found Int.one_pos hrest, balancedEnd?_eq_closerFrom hopener hstart]
    rfl

lemma depth_nonneg_of_rounds (hopener : isQuote opener = false) (hstart : bs[start]? = some opener)
    (h : rounds bs opener closer n ⟨start, 0, none⟩ = .ok p) : 0 ≤ p.depth := by
  cases n with
  | zero =>
    obtain rfl := Except.ok.inj h
    exact Int.le_refl 0
  | succ n =>
    rw [rounds_succ hopener hstart] at h
    exact Int.le_of_lt (depth_pos_of_rounds Int.one_pos h)

end Progress

open Progress in
/-- Where a bracket opens, the scan finds the least offset past it up to which the bytes of code hold as many openers
as closers, and none if there is no such offset. Bytes from that offset on do not matter, and text before the bracket
only moves the offset. The loop gives that answer after more rounds than bytes are left, and never counts below zero. -/
theorem balancedEnd?_isLeast (hopener : isQuote opener = false) (hcloser : isQuote closer = false)
    (hne : opener ≠ closer) (hstart : t.bytes[start]? = some opener) :
    (∀ stop, balancedEnd? t start opener closer = some stop ↔
      IsLeast {stop | Balances t opener closer start stop} stop) ∧
    (balancedEnd? t start opener closer = none ↔ ∀ stop, ¬Balances t opener closer start stop) ∧
    (∀ t' stop, balancedEnd? t start opener closer = some stop → t'.bytes.take stop = t.bytes.take stop →
      balancedEnd? t' start opener closer = some stop) ∧
    (∀ front : Text, balancedEnd? (front ++ t) (front.size + start) opener closer =
      (balancedEnd? t start opener closer).map (front.size + ·)) ∧
    (∀ n, t.size - start < n →
      rounds t.bytes opener closer n ⟨start, 0, none⟩ = .error (balancedEnd? t start opener closer)) ∧
    ∀ n p, rounds t.bytes opener closer n ⟨start, 0, none⟩ = .ok p → 0 ≤ p.depth := by
  have hleast : (∀ stop, balancedEnd? t start opener closer = some stop ↔
        IsLeast {stop | Balances t opener closer start stop} stop) ∧
      (balancedEnd? t start opener closer = none ↔ ∀ stop, ¬Balances t opener closer start stop) := by
    refine search_iff (fun _ h => h.1) (fun _ _ => IsLeast.unique) (fun stop h => ?_) fun h stop hstop => ?_
    · exact isLeast_of_balancedEnd? hopener hne hstart h
    · obtain ⟨found, -, hfound⟩ := hstop.exists_balancedEnd?_le hopener hne hstart
      rw [h] at hfound
      cases hfound
  refine ⟨hleast.1, hleast.2, ?_, ?_, ?_, ?_⟩
  · exact fun t' stop h htake => balancedEnd?_of_take_eq hopener hcloser hne h htake
  · exact fun front => balancedEnd?_append front t start opener closer
  · exact fun n hleft => rounds_eq_balancedEnd? hopener hstart hleft
  · exact fun n p h => depth_nonneg_of_rounds hopener hstart h

/-- Braces within braces and within literals, one of them after an escaped quote. -/
def bracesInLiterals : Text := "a=\x7bb:\x7bc:\"\x7d\\\"\x7d\"\x7d,d:\x60\x7b\x60\x7d;\x7d".toList

/-- The outer braces end after the last literal, and they do not end in the text without their closer. -/
theorem isLeast_balances_bracesInLiterals :
    isQuote 0x7B = false ∧ isQuote 0x7D = false ∧ (0x7B : UInt8) ≠ 0x7D ∧ bracesInLiterals.bytes[2]? = some 0x7B ∧
      IsLeast {stop | Balances bracesInLiterals 0x7B 0x7D 2 stop} 22 ∧
      Progress.rounds bracesInLiterals.bytes 0x7B 0x7D 23 ⟨2, 0, none⟩ = .error (some 22) ∧
      ∀ stop, ¬Balances (bracesInLiterals.take 21) 0x7B 0x7D 2 stop := by
  have hopener : isQuote 0x7B = false := rfl
  have hcloser : isQuote 0x7D = false := rfl
  have hne : (0x7B : UInt8) ≠ 0x7D := by decide
  have hstart : bracesInLiterals.bytes[2]? = some 0x7B := by decide
  have hcut : (Text.bytes (bracesInLiterals.take 21))[2]? = some 0x7B := by decide
  have hfound : balancedEnd? bracesInLiterals 2 0x7B 0x7D = some 22 := by decide
  obtain ⟨hleast, -, -, -, hrounds, -⟩ := balancedEnd?_isLeast hopener hcloser hne hstart
  obtain ⟨-, hnone, -⟩ := balancedEnd?_isLeast hopener hcloser hne hcut
  exact ⟨hopener, hcloser, hne, hstart, (hleast 22).1 hfound, hfound ▸ hrounds 23 (by decide), hnone.1 (by decide)⟩

end Retouch.Scan
