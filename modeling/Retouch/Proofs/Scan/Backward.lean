import Mathlib.Tactic.Lemma
import Mathlib.Tactic.SplitIfs
import Retouch.Scan.Bracket

/-! The scan back to the bracket around a place. It takes quotes for any other byte, so it gets past bytes
whose brackets come in pairs with those in string literals among them. -/
namespace Retouch.Scan

/-- Bytes whose brackets come in pairs. -/
inductive Paired (opener closer : UInt8) : List UInt8 → Prop
  | nil : Paired opener closer []
  | byte {b : UInt8} {bs : List UInt8} :
      b ≠ opener → b ≠ closer → Paired opener closer bs → Paired opener closer (b :: bs)
  | pair {as bs : List UInt8} :
      Paired opener closer as → Paired opener closer bs →
        Paired opener closer (opener :: (as ++ closer :: bs))

variable {opener closer : UInt8} {bs : List UInt8}

lemma openerBefore_cons (depth pos : Nat) (b : UInt8) (rest : List UInt8) :
    openerBefore opener closer depth pos (b :: rest) =
      if b == closer then openerBefore opener closer (depth + 1) (pos - 1) rest
      else if b == opener then
        match depth with
        | 0 => some (pos - 1)
        | depth + 1 => openerBefore opener closer depth (pos - 1) rest
      else openerBefore opener closer depth (pos - 1) rest := rfl

lemma openerBefore_opener (hne : opener ≠ closer) (depth pos : Nat) (rest : List UInt8) :
    openerBefore opener closer depth pos (opener :: rest) =
      match depth with
      | 0 => some (pos - 1)
      | depth + 1 => openerBefore opener closer depth (pos - 1) rest := by
  rw [openerBefore_cons, if_neg (by simpa using hne), if_pos (beq_self_eq_true opener)]

lemma openerBefore_closer (depth pos : Nat) (rest : List UInt8) :
    openerBefore opener closer depth pos (closer :: rest) =
      openerBefore opener closer (depth + 1) (pos - 1) rest := by
  rw [openerBefore_cons, if_pos (beq_self_eq_true closer)]

lemma openerBefore_byte {b : UInt8} (hopener : b ≠ opener) (hcloser : b ≠ closer) (depth pos : Nat)
    (rest : List UInt8) : openerBefore opener closer depth pos (b :: rest) =
      openerBefore opener closer depth (pos - 1) rest := by
  rw [openerBefore_cons, if_neg (by simpa using hcloser), if_neg (by simpa using hopener)]

/-- Pairs leave the count of brackets as it was. -/
lemma openerBefore_paired (hne : opener ≠ closer) (h : Paired opener closer bs) (depth pos : Nat)
    (rest : List UInt8) : openerBefore opener closer depth pos (bs.reverse ++ rest) =
      openerBefore opener closer depth (pos - bs.length) rest := by
  induction h generalizing depth pos rest with
  | nil => rfl
  | @byte b bs hopener hcloser _ ih =>
    rw [List.reverse_cons, List.append_assoc, ih, List.singleton_append,
      openerBefore_byte hopener hcloser, Nat.sub_sub, List.length_cons]
  | @pair as bs _ _ has hbs =>
    have hreverse : (opener :: (as ++ closer :: bs)).reverse ++ rest =
        bs.reverse ++ closer :: (as.reverse ++ opener :: rest) := by simp
    have hlength : bs.length + 1 + as.length + 1 = (opener :: (as ++ closer :: bs)).length := by
      simp only [List.length_cons, List.length_append]
      omega
    rw [hreverse, hbs, openerBefore_closer, has, openerBefore_opener hne]
    simp only [Nat.sub_sub, hlength]

/-- The last of paired bytes may close what opens before them, and nothing more. -/
lemma openerBefore_take (hne : opener ≠ closer) (h : Paired opener closer bs) (depth pos n : Nat) :
    openerBefore opener closer depth pos (bs.reverse.take n) = none := by
  -- The scan ends in the paired bytes, or gets past them to the byte before.
  have hpast {bs : List UInt8} (h : Paired opener closer bs)
      (hbs : ∀ depth pos n, openerBefore opener closer depth pos (bs.reverse.take n) = none)
      (depth pos n : Nat) (b : UInt8) (rest : List UInt8) :
      openerBefore opener closer depth pos ((bs.reverse ++ b :: rest).take n) = none ∨
        ∃ pos' k, openerBefore opener closer depth pos ((bs.reverse ++ b :: rest).take n) =
          openerBefore opener closer depth pos' (b :: rest.take k) := by
    rw [List.take_append]
    cases hn : n - bs.reverse.length with
    | zero =>
      rw [List.take_zero, List.append_nil]
      exact .inl (hbs _ _ _)
    | succ k =>
      rw [List.take_of_length_le (by omega), openerBefore_paired hne h, List.take_succ_cons]
      exact .inr ⟨_, k, rfl⟩
  induction h generalizing depth pos n with
  | nil =>
    rw [List.reverse_nil, List.take_nil]
    rfl
  | @byte b bs hopener hcloser hbs ih =>
    rw [List.reverse_cons]
    rcases hpast hbs ih depth pos n b [] with hnone | ⟨pos', k, hb⟩
    · exact hnone
    · rw [hb, openerBefore_byte hopener hcloser, List.take_nil]
      rfl
  | @pair as bs has hbs ihas ihbs =>
    have hreverse : (opener :: (as ++ closer :: bs)).reverse =
        bs.reverse ++ closer :: (as.reverse ++ [opener]) := by simp
    rw [hreverse]
    rcases hpast hbs ihbs depth pos n closer (as.reverse ++ [opener]) with hnone | ⟨pos', k, hcloser⟩
    · exact hnone
    · rw [hcloser, openerBefore_closer]
      rcases hpast has ihas (depth + 1) (pos' - 1) k opener [] with hnone | ⟨pos'', l, hopener⟩
      · exact hnone
      · rw [hopener, openerBefore_opener hne, List.take_nil]
        rfl

/-- The opener right before paired brackets is found if it is near enough, and none is if it is not. -/
theorem enclosingOpener?_of_paired {t : Text} {front rest : List UInt8} {lookback : Nat}
    (hne : opener ≠ closer) (ht : t.bytes = front ++ opener :: (bs ++ rest)) (h : Paired opener closer bs) :
    enclosingOpener? t (front.length + 1 + bs.length) opener closer lookback =
      if bs.length < lookback then some front.length else none := by
  have hbefore : (t.bytes.take (front.length + 1 + bs.length)).reverse =
      bs.reverse ++ opener :: front.reverse := by
    have hsplit : t.bytes = (front ++ opener :: bs) ++ rest := by simp [ht]
    rw [hsplit, List.take_left' (by simp; omega)]
    simp
  have hlength : (bs.reverse ++ opener :: front.reverse).length - bs.length - 1 = front.length := by
    simp only [List.length_append, List.length_reverse, List.length_cons]
    omega
  rw [enclosingOpener?, hbefore, List.take_append]
  split_ifs with hnear
  · obtain ⟨reach, hreach⟩ : ∃ reach, lookback - bs.reverse.length = reach + 1 :=
      ⟨lookback - bs.reverse.length - 1, by rw [List.length_reverse]; omega⟩
    rw [List.take_of_length_le (by rw [List.length_reverse]; omega), hreach, List.take_succ_cons,
      openerBefore_paired hne h, openerBefore_opener hne, hlength]
  · have hfar : lookback - bs.reverse.length = 0 := by
      rw [List.length_reverse]
      omega
    rw [hfar, List.take_zero, List.append_nil]
    exact openerBefore_take hne h _ _ _

end Retouch.Scan
