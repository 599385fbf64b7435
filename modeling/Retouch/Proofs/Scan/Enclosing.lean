import Mathlib.Order.Bounds.Basic
import Retouch.Proofs.Scan.Backward
import Retouch.Proofs.Scan.Bracket

/-! The bracket around a place, found backward and told forward. In bytes without quotes the scan back counts the
closers that still wait for their openers, and so it passes over every opener whose pair ends before the place.
What it finds is the nearest opener whose forward scan gets past the place. -/
namespace Retouch.Scan

/-- Within reach before a place, an opener whose pair does not end by then. -/
structure OpenAt (t : Text) (opener closer : UInt8) (place lookback start : Nat) : Prop where
  near : place - lookback ≤ start
  before : start < place
  byte : t.bytes[start]? = some opener
  unclosed : ¬∃ stop ≤ place, balancedEnd? t start opener closer = some stop

/-- An opener among some bytes, after which they leave at least so many brackets open. -/
def LeavesOpen (opener closer : UInt8) (depth : Nat) (bs : List UInt8) (n : Nat) : Prop :=
  bs[n]? = some opener ∧ ∃ s, level? (· == opener) (· == closer) (.code, 0) (bs.drop (n + 1)) = some s ∧
    depth ≤ s.2

variable {t : Text} {opener closer b : UInt8} {bs : List UInt8} {depth place lookback start n : Nat}

/-! ## One byte more -/

lemma LeavesOpen.lt (h : LeavesOpen opener closer depth bs n) : n < bs.length :=
  (List.getElem?_eq_some_iff.1 h.1).1

lemma leavesOpen_length_iff :
    LeavesOpen opener closer depth (bs ++ [b]) bs.length ↔ b = opener ∧ depth = 0 := by
  simp [LeavesOpen]

/-- A byte after the opener takes the state one step on. -/
lemma leavesOpen_append_iff (h : n < bs.length) : LeavesOpen opener closer depth (bs ++ [b]) n ↔
    bs[n]? = some opener ∧ ∃ s, level? (· == opener) (· == closer) (.code, 0) (bs.drop (n + 1)) = some s ∧
      ∃ s', levelStep (· == opener) (· == closer) s b = some s' ∧ depth ≤ s'.2 := by
  have hstep (s : Lex × Nat) : level? (· == opener) (· == closer) s [b] =
      levelStep (· == opener) (· == closer) s b := by
    rw [level?_cons]
    cases levelStep (· == opener) (· == closer) s b <;> rfl
  rw [LeavesOpen, List.getElem?_append_left h, List.drop_append_of_le_length h, level?_append]
  simp only [hstep]
  constructor
  · rintro ⟨hbyte, s', hs', hle⟩
    obtain ⟨s, hs, hb⟩ := Option.bind_eq_some_iff.1 hs'
    exact ⟨hbyte, s, hs, s', hb, hle⟩
  · rintro ⟨hbyte, s, hs, s', hb, hle⟩
    exact ⟨hbyte, s', Option.bind_eq_some_iff.2 ⟨s, hs, hb⟩, hle⟩

section Byte

variable (hquotes : ∀ b ∈ bs, isQuote b = false)
include hquotes

/-- A byte of code leaves enough open if the bytes before it leave enough for it to take away. -/
lemma leavesOpen_append_of_step {depth' : Nat} (hlast : ¬(b = opener ∧ depth = 0))
    (hstep : ∀ k, (∃ s', levelStep (· == opener) (· == closer) (.code, k) b = some s' ∧ depth ≤ s'.2) ↔ depth' ≤ k)
    (n : Nat) : LeavesOpen opener closer depth (bs ++ [b]) n ↔ LeavesOpen opener closer depth' bs n := by
  rcases Nat.lt_trichotomy n bs.length with hlt | rfl | hgt
  · rw [leavesOpen_append_iff hlt, LeavesOpen]
    refine and_congr_right fun _ => exists_congr fun s => and_congr_right fun hs => ?_
    have hcode := code_of_level? (fun b hb => hquotes b (List.mem_of_mem_drop hb)) hs
    obtain ⟨lex, k⟩ := s
    obtain rfl : lex = .code := hcode
    exact hstep k
  · exact iff_of_false (fun h => hlast (leavesOpen_length_iff.1 h)) fun h => absurd h.lt (Nat.lt_irrefl _)
  · refine iff_of_false (fun h => ?_) fun h => absurd h.lt (Nat.lt_asymm hgt)
    have := h.lt
    rw [List.length_append, List.length_singleton] at this
    omega

lemma leavesOpen_closer (hne : opener ≠ closer) (depth n : Nat) :
    LeavesOpen opener closer depth (bs ++ [closer]) n ↔ LeavesOpen opener closer (depth + 1) bs n := by
  refine leavesOpen_append_of_step hquotes (fun h => hne h.1.symm) (fun k => ?_) n
  rw [levelStep_code, if_neg (by simpa using hne.symm), if_pos (beq_self_eq_true closer)]
  cases k <;> simp

lemma leavesOpen_opener (depth n : Nat) :
    LeavesOpen opener closer (depth + 1) (bs ++ [opener]) n ↔ LeavesOpen opener closer depth bs n := by
  refine leavesOpen_append_of_step hquotes (fun h => Nat.succ_ne_zero _ h.2) (fun k => ?_) n
  rw [levelStep_code, if_pos (beq_self_eq_true opener)]
  simp

lemma leavesOpen_byte (hopener : b ≠ opener) (hcloser : b ≠ closer) (depth n : Nat) :
    LeavesOpen opener closer depth (bs ++ [b]) n ↔ LeavesOpen opener closer depth bs n := by
  refine leavesOpen_append_of_step hquotes (fun h => hopener h.1) (fun k => ?_) n
  rw [levelStep_code, if_neg (by simpa using hopener), if_neg (by simpa using hcloser)]
  simp

end Byte

/-- The scan back finds the last of the openers after which more brackets are left open than it has to see closed,
and it finds one if there is any. -/
lemma openerBefore_spec (hne : opener ≠ closer) (hquotes : ∀ b ∈ bs, isQuote b = false) (depth base : Nat) :
    (∀ start, openerBefore opener closer depth (base + bs.length) bs.reverse = some start →
      ∃ n, start = base + n ∧ IsGreatest {n | LeavesOpen opener closer depth bs n} n) ∧
    (openerBefore opener closer depth (base + bs.length) bs.reverse = none →
      ∀ n, ¬LeavesOpen opener closer depth bs n) := by
  induction bs using List.reverseRecOn generalizing depth with
  | nil => exact ⟨nofun, fun _ n h => absurd h.lt n.not_lt_zero⟩
  | append_singleton bs b ih =>
    have hbs : ∀ b ∈ bs, isQuote b = false := fun b hb => hquotes b (List.mem_append_left _ hb)
    have hlength : base + (bs ++ [b]).length - 1 = base + bs.length := by simp
    rw [List.reverse_append, List.reverse_singleton, List.singleton_append]
    by_cases hcloser : b = closer
    · subst hcloser
      rw [openerBefore_closer, hlength]
      simp only [leavesOpen_closer hbs hne]
      exact ih hbs (depth + 1)
    · by_cases hopener : b = opener
      · subst hopener
        rw [openerBefore_opener hne, hlength]
        cases depth with
        | zero =>
          refine ⟨fun start h => ⟨bs.length, (Option.some.inj h).symm, ?_, fun n hn => ?_⟩, nofun⟩
          · exact leavesOpen_length_iff.2 ⟨rfl, rfl⟩
          · have := LeavesOpen.lt hn
            rw [List.length_append, List.length_singleton] at this
            exact Nat.le_of_lt_succ this
        | succ depth =>
          simp only [leavesOpen_opener hbs]
          exact ih hbs depth
      · rw [openerBefore_byte hopener hcloser, hlength]
        simp only [leavesOpen_byte hbs hopener hcloser]
        exact ih hbs depth

/-! ## Forward from the opener -/

/-- A pair ends by the place exactly if the bytes up to there close more than they open. -/
lemma exists_balancedEnd?_le_iff (hopener : isQuote opener = false) (hcloser : isQuote closer = false)
    (hne : opener ≠ closer) {front between rest : List UInt8}
    (ht : t.bytes = front ++ opener :: (between ++ rest)) :
    (∃ stop ≤ front.length + 1 + between.length, balancedEnd? t front.length opener closer = some stop) ↔
      level? (· == opener) (· == closer) (.code, 0) between = none := by
  constructor
  · rintro ⟨stop, hle, hstop⟩
    have hpast := past_balancedEnd?_iff hopener hcloser hne (List.not_mem_nil : closer ∉ []) ht hstop
    rw [← Option.not_isSome_iff_eq_none, ← hpast]
    exact Nat.not_lt.2 hle
  · intro hnone
    obtain ⟨body, b, after, rfl, hbody, hb⟩ := exists_of_level?_eq_none hnone
    obtain rfl : b = closer := by simpa using hb
    refine ⟨front.length + body.length + 2, by simp; omega, ?_⟩
    exact (balancedEnd?_eq_some_iff hopener hcloser hne).2
      ⟨front, body, after ++ rest, by simp [ht], rfl, rfl, hbody⟩

lemma leavesOpen_zero_iff {front between : List UInt8} :
    LeavesOpen opener closer 0 (front ++ opener :: between) front.length ↔
      level? (· == opener) (· == closer) (.code, 0) between ≠ none := by
  simp [LeavesOpen, Option.ne_none_iff_exists']

lemma leavesOpen_drop_iff (k n : Nat) :
    LeavesOpen opener closer depth (bs.drop k) n ↔ LeavesOpen opener closer depth bs (k + n) := by
  rw [LeavesOpen, List.getElem?_drop, List.drop_drop, ← Nat.add_assoc, LeavesOpen]

/-- Told forward and told by the bytes up to the place, the same openers are open there. -/
lemma openAt_iff (hopener : isQuote opener = false) (hcloser : isQuote closer = false) (hne : opener ≠ closer)
    (hplace : place ≤ t.size) : OpenAt t opener closer place lookback start ↔
      place - lookback ≤ start ∧ LeavesOpen opener closer 0 (t.bytes.take place) start := by
  have hbytes : t.bytes = t.bytes.take place ++ t.bytes.drop place := (List.take_append_drop place t.bytes).symm
  have hlength : (t.bytes.take place).length = place := by
    rw [List.length_take, Text.length_bytes, Nat.min_eq_left hplace]
  have hbefore (h : (t.bytes.take place)[start]? = some opener) :
      (¬∃ stop ≤ place, balancedEnd? t start opener closer = some stop) ↔
        LeavesOpen opener closer 0 (t.bytes.take place) start := by
    obtain ⟨front, hfront, rfl⟩ := exists_front_of_drop (drop_of_getElem? h)
    generalize (t.bytes.take place).drop (front.length + 1) = between at hfront
    have hend : front.length + 1 + between.length = place := by
      rw [← hlength, hfront, List.length_append, List.length_cons]
      omega
    rw [hfront, List.append_assoc, List.cons_append] at hbytes
    rw [hfront, leavesOpen_zero_iff, Ne, ← exists_balancedEnd?_le_iff hopener hcloser hne hbytes, hend]
  constructor
  · rintro ⟨hnear, hlt, hbyte, hunclosed⟩
    exact ⟨hnear, (hbefore (by rw [List.getElem?_take_of_lt hlt, hbyte])).1 hunclosed⟩
  · rintro ⟨hnear, hopen⟩
    have hlt : start < place := hlength ▸ hopen.lt
    exact ⟨hnear, hlt, by rw [← List.getElem?_take_of_lt hlt, hopen.1], (hbefore hopen.1).2 hopen⟩

/-- In a text without quotes, the scan back from a place is the dual of the scan forward: it finds the greatest
offset in its reach that has an opener whose pair does not end by the place, and none if there is no such offset. -/
theorem enclosingOpener?_isGreatest (hopener : isQuote opener = false) (hcloser : isQuote closer = false)
    (hne : opener ≠ closer) (hquotes : ∀ b ∈ t.bytes, isQuote b = false) (hplace : place ≤ t.size) (lookback : Nat) :
    (∀ start, enclosingOpener? t place opener closer lookback = some start ↔
      IsGreatest {start | OpenAt t opener closer place lookback start} start) ∧
    (enclosingOpener? t place opener closer lookback = none ↔
      ∀ start, ¬OpenAt t opener closer place lookback start) := by
  have hlength : (t.bytes.take place).length = place := by
    rw [List.length_take, Text.length_bytes, Nat.min_eq_left hplace]
  let window := (t.bytes.take place).drop (place - lookback)
  have hscan : enclosingOpener? t place opener closer lookback =
      openerBefore opener closer 0 (place - lookback + window.length) window.reverse := by
    rw [enclosingOpener?, List.take_reverse, List.length_reverse, List.length_drop, hlength]
    congr 1
    omega
  have hwindow (n : Nat) : OpenAt t opener closer place lookback (place - lookback + n) ↔
      LeavesOpen opener closer 0 window n := by
    rw [openAt_iff hopener hcloser hne hplace, leavesOpen_drop_iff]
    exact and_iff_right (Nat.le_add_right _ _)
  have hreach : ∀ b ∈ window, isQuote b = false := fun b hb =>
    hquotes b (List.mem_of_mem_take (List.mem_of_mem_drop hb))
  obtain ⟨hsome, hnone⟩ := openerBefore_spec hne hreach 0 (place - lookback)
  rw [hscan]
  refine search_iff (fun _ h => h.1) (fun _ _ => IsGreatest.unique) (fun start h => ?_) fun h start hstart => ?_
  · obtain ⟨n, rfl, hn, hgreatest⟩ := hsome start h
    refine ⟨(hwindow n).2 hn, fun m hm => ?_⟩
    obtain ⟨k, rfl⟩ := Nat.exists_eq_add_of_le hm.near
    exact Nat.add_le_add_left (hgreatest ((hwindow k).1 hm)) _
  · obtain ⟨n, rfl⟩ := Nat.exists_eq_add_of_le hstart.near
    exact hnone h n ((hwindow n).1 hstart)

/-- Brackets that close nothing, a pair, and a brace that stays open. -/
def strayBraces : Text := "\x7d\x7ba\x7d\x7d\x7bb\x7bc\x7dd".toList

/-- From the end the brace that stays open is found, and within fewer bytes there is none. -/
theorem isGreatest_openAt_strayBraces : (∀ b ∈ strayBraces.bytes, isQuote b = false) ∧ 11 ≤ strayBraces.size ∧
    IsGreatest {start | OpenAt strayBraces 0x7B 0x7D 11 11 start} 5 ∧
    ∀ start, ¬OpenAt strayBraces 0x7B 0x7D 11 5 start := by
  have hquotes : ∀ b ∈ strayBraces.bytes, isQuote b = false := by decide +kernel
  have hplace : 11 ≤ strayBraces.size := by decide
  have hfar := enclosingOpener?_isGreatest (rfl : isQuote 0x7B = false) (rfl : isQuote 0x7D = false) (by decide)
    hquotes hplace 11
  have hnear := enclosingOpener?_isGreatest (rfl : isQuote 0x7B = false) (rfl : isQuote 0x7D = false) (by decide)
    hquotes hplace 5
  exact ⟨hquotes, hplace, (hfar.1 5).1 (by decide), hnear.2.1 (by decide)⟩

end Retouch.Scan
