import Mathlib.Order.Bounds.Basic
import Retouch.Proofs.Scan.Level

/-! Where an expression ends. The scan for the end counts brackets as it goes and stops at the first byte that
ends the expression. So it finds the least of the offsets that have such a byte and no open bracket before
them, as the count of brackets between two offsets tells. -/
namespace Retouch.Scan

/-- A byte that ends an expression, if no bracket is open. -/
def IsEnd (b : UInt8) : Prop := isSeparator b = true ∨ isCloser b = true

/-- An expression that starts at one offset can end at the other one. -/
structure EndsAt (t : Text) (start stop : Nat) : Prop where
  le : start ≤ stop
  depth : depthBetween? t start stop = some 0
  byte : ∃ b, t.bytes[stop]? = some b ∧ IsEnd b

/-- From a state of the scan on, an expression can end after so many bytes. -/
def Stops (s : Lex × Nat) (bs : List UInt8) (n : Nat) : Prop :=
  level? isOpener isCloser s (bs.take n) = some (.code, 0) ∧ ∃ b, bs[n]? = some b ∧ IsEnd b

variable {t : Text} {s s' : Lex × Nat} {start n : Nat} {b : UInt8} {bs : List UInt8}

lemma not_stops_nil (s : Lex × Nat) (n : Nat) : ¬Stops s [] n := by
  rintro ⟨-, b, hb, -⟩
  cases hb

lemma stops_zero_iff : Stops s (b :: bs) 0 ↔ s = (.code, 0) ∧ IsEnd b := by
  simp [Stops]

lemma stops_succ_iff (h : levelStep isOpener isCloser s b = some s') :
    Stops s (b :: bs) (n + 1) ↔ Stops s' bs n := by
  rw [Stops, List.take_succ_cons, level?_cons, h, Option.bind_some, List.getElem?_cons_succ, Stops]

lemma expressionEndFrom_code (depth pos : Nat) (b : UInt8) (bs : List UInt8) :
    expressionEndFrom .code depth pos (b :: bs) =
      if isOpener b then expressionEndFrom .code (depth + 1) (pos + 1) bs
      else if isCloser b then
        match depth with
        | 0 => some pos
        | depth + 1 => expressionEndFrom .code depth (pos + 1) bs
      else if isSeparator b && depth == 0 then some pos
      else expressionEndFrom (Lex.step .code b) depth (pos + 1) bs := rfl

lemma isOpener_eq_false_of_isEnd (h : IsEnd b) : isOpener b = false := by
  simp only [IsEnd, isSeparator, isCloser, Bool.or_eq_true, beq_iff_eq] at h
  rcases h with (rfl | rfl) | (rfl | rfl) | rfl <;> rfl

/-- The scan stops where it can. -/
lemma expressionEndFrom_of_isEnd (h : IsEnd b) (pos : Nat) (bs : List UInt8) :
    expressionEndFrom .code 0 pos (b :: bs) = some pos := by
  rw [expressionEndFrom_code, isOpener_eq_false_of_isEnd h, if_neg Bool.false_ne_true]
  rcases h with hseparator | hcloser
  · simp [hseparator]
  · rw [if_pos hcloser]

/-- Elsewhere it goes on from the state that the byte leaves. -/
lemma exists_expressionEndFrom_cons (h : ¬(s = (.code, 0) ∧ IsEnd b)) :
    ∃ s', levelStep isOpener isCloser s b = some s' ∧ ∀ pos bs,
      expressionEndFrom s.1 s.2 pos (b :: bs) = expressionEndFrom s'.1 s'.2 (pos + 1) bs := by
  obtain ⟨lex, depth⟩ := s
  cases lex with
  | code =>
    simp only [levelStep_code, expressionEndFrom_code]
    split_ifs with hopener hcloser hseparator
    · exact ⟨_, rfl, fun _ _ => rfl⟩
    · cases depth with
      | zero => exact absurd ⟨rfl, .inr hcloser⟩ h
      | succ depth => exact ⟨_, rfl, fun _ _ => rfl⟩
    · obtain ⟨hseparator, hdepth⟩ := Bool.and_eq_true_iff.1 hseparator
      exact absurd ⟨by rw [beq_iff_eq.1 hdepth], .inl hseparator⟩ h
    · exact ⟨_, rfl, fun _ _ => rfl⟩
  | literal quote => exact ⟨_, rfl, fun _ _ => rfl⟩
  | escape quote => exact ⟨_, rfl, fun _ _ => rfl⟩

/-- What the scan finds is the least number of bytes after which it can stop, and it finds one if there is any. -/
lemma expressionEndFrom_spec (s : Lex × Nat) (pos : Nat) (bs : List UInt8) :
    (∀ stop, expressionEndFrom s.1 s.2 pos bs = some stop →
      ∃ n, stop = pos + n ∧ IsLeast {n | Stops s bs n} n) ∧
    (expressionEndFrom s.1 s.2 pos bs = none → ∀ n, ¬Stops s bs n) := by
  induction bs generalizing s pos with
  | nil =>
    obtain ⟨lex, depth⟩ := s
    have hnone : expressionEndFrom lex depth pos [] = none := by cases lex <;> rfl
    refine ⟨fun stop h => ?_, fun _ => not_stops_nil _⟩
    rw [hnone] at h
    cases h
  | cons b bs ih =>
    by_cases hend : s = (.code, 0) ∧ IsEnd b
    · obtain ⟨rfl, hb⟩ := hend
      rw [expressionEndFrom_of_isEnd hb]
      refine ⟨fun stop h => ⟨0, (Option.some.inj h).symm, ?_, fun n _ => n.zero_le⟩, nofun⟩
      exact stops_zero_iff.2 ⟨rfl, hb⟩
    · obtain ⟨s', hs', hscan⟩ := exists_expressionEndFrom_cons hend
      obtain ⟨hsome, hnone⟩ := ih s' (pos + 1)
      rw [hscan]
      refine ⟨fun stop h => ?_, fun h n hn => ?_⟩
      · obtain ⟨n, rfl, hn, hleast⟩ := hsome stop h
        refine ⟨n + 1, by omega, (stops_succ_iff hs').2 hn, fun m hm => ?_⟩
        cases m with
        | zero => exact absurd (stops_zero_iff.1 hm) hend
        | succ m => exact Nat.succ_le_succ (hleast ((stops_succ_iff hs').1 hm))
      · cases n with
        | zero => exact hend (stops_zero_iff.1 hn)
        | succ n => exact hnone h n ((stops_succ_iff hs').1 hn)

lemma endsAt_add_iff : EndsAt t start (start + n) ↔ Stops (.code, 0) (t.bytes.drop start) n := by
  have hdepth : depthBetween? t start (start + n) = some 0 ↔
      level? isOpener isCloser (.code, 0) ((t.bytes.drop start).take n) = some (.code, 0) := by
    rw [depthBetween?, depthAfter_eq_some_iff, Nat.add_sub_cancel_left]
  rw [Stops, List.getElem?_drop, ← hdepth]
  exact ⟨fun h => ⟨h.depth, h.byte⟩, fun h => ⟨Nat.le_add_right start n, h.1, h.2⟩⟩

/-- The end of an expression is the least offset from its start on that has a separator or a closer and no bracket
open since the start, and there is none exactly if there is no such offset. -/
theorem expressionEnd?_isLeast (t : Text) (start : Nat) :
    (∀ stop, expressionEnd? t start = some stop ↔ IsLeast {stop | EndsAt t start stop} stop) ∧
      (expressionEnd? t start = none ↔ ∀ stop, ¬EndsAt t start stop) := by
  obtain ⟨hsome, hnone⟩ := expressionEndFrom_spec (.code, 0) start (t.bytes.drop start)
  refine search_iff (fun _ h => h.1) (fun _ _ => IsLeast.unique) (fun stop h => ?_) fun h stop hstop => ?_
  · obtain ⟨n, rfl, hn, hleast⟩ := hsome stop h
    refine ⟨endsAt_add_iff.2 hn, fun m hm => ?_⟩
    obtain ⟨k, rfl⟩ := Nat.exists_eq_add_of_le hm.le
    exact Nat.add_le_add_left (hleast (endsAt_add_iff.1 hm)) start
  · obtain ⟨n, rfl⟩ := Nat.exists_eq_add_of_le hstop.le
    exact hnone h n (endsAt_add_iff.1 hstop)

example : expressionEnd? "f('),',[a,b]),c".toList 0 = some 13 := by decide

end Retouch.Scan
