import Mathlib.Data.List.TakeWhile
import Mathlib.Tactic.Ring
import Retouch.Proofs.Pattern.Preferred
import Retouch.Proofs.Pattern.Takes
import Retouch.Proofs.Release.Banner

/-! The release that a banner states. The search for the banner reads the first one near the top of a bundle.
If that one reaches to the end of what is searched, digits that follow are not read: the number may go on
past them. -/
namespace Retouch

/-- The code points of white space. -/
def blankCodes : List Nat :=
  [9, 10, 11, 12, 13, 0x20, 0x85, 0xA0, 0x1680, 0x2000, 0x2001, 0x2002, 0x2003, 0x2004, 0x2005, 0x2006, 0x2007,
    0x2008, 0x2009, 0x200A, 0x2028, 0x2029, 0x202F, 0x205F, 0x3000]

lemma toNat_mem_blankCodes {c : Char} (h : isBlank c = true) : c.toNat ∈ blankCodes := by
  simp only [isBlank, Bool.or_eq_true, Bool.and_eq_true, decide_eq_true_eq, beq_iff_eq] at h
  simp only [blankCodes, List.mem_cons, List.not_mem_nil, or_false]
  omega

/-- No white space is a digit. -/
lemma isDigit_eq_false_of_isBlank {c : Char} (h : isBlank c = true) : isDigit c = false := by
  have hnone : ∀ n ∈ blankCodes, isDigit (Char.ofNat n) = false := by decide +kernel
  have hdigit := hnone c.toNat (toNat_mem_blankCodes h)
  rwa [Char.ofNat_toNat] at hdigit

namespace Release

open Pattern Cursor

/-! ## Numbers -/

lemma part?_eq_some_iff {digits : Text} {n : UInt32} : part? digits = some n ↔
    digits ≠ [] ∧ (∀ c ∈ digits, c.isDigit = true) ∧ digitsValue digits = n.toNat := by
  unfold part?
  split
  · next hwrong =>
    simp only [Bool.or_eq_true, List.isEmpty_iff, Bool.not_eq_true', List.all_eq_false] at hwrong
    refine iff_of_false nofun ?_
    rintro ⟨hne, hdigits, -⟩
    rcases hwrong with hnil | ⟨c, hc, hdigit⟩
    · exact hne hnil
    · exact hdigit (hdigits c hc)
  · next hright =>
    simp only [Bool.or_eq_true, List.isEmpty_iff, Bool.not_eq_true', List.all_eq_false, not_or, not_exists,
      not_and, Bool.not_eq_true, Bool.not_eq_false] at hright
    split
    · next hlt =>
      rw [Option.some.injEq, and_iff_right hright.1, and_iff_right fun c hc => by simpa using hright.2 c hc]
      rw [← UInt32.toNat_inj, UInt32.toNat_ofNatLT]
    · next hlt =>
      refine iff_of_false nofun ?_
      rintro ⟨-, -, hvalue⟩
      exact hlt (hvalue ▸ n.toNat_lt)

/-- More digits move the value of the first ones up. -/
lemma digitsValue_append (digits more : Text) :
    digitsValue (digits ++ more) = digitsValue digits * 10 ^ more.length + digitsValue more := by
  have hfold (n : Nat) : more.foldl (fun n c => 10 * n + (c.toNat - 48)) n =
      n * 10 ^ more.length + digitsValue more := by
    unfold digitsValue
    induction more generalizing n with
    | nil => simp
    | cons c more ih =>
      rw [List.foldl_cons, List.foldl_cons, ih, ih (10 * 0 + _), List.length_cons, Nat.pow_succ]
      ring
  have happend : digitsValue (digits ++ more) =
      more.foldl (fun n c => 10 * n + (c.toNat - 48)) (digitsValue digits) := List.foldl_append
  rw [happend, hfold]

lemma toNat_of_isDigit {c : Char} (h : c.isDigit = true) : 48 ≤ c.toNat ∧ c.toNat ≤ 57 := by
  simpa [Char.isDigit, UInt32.le_iff_toNat_le] using h

/-- The value is zero for zeros alone. -/
lemma digitsValue_eq_zero_iff {digits : Text} (h : ∀ c ∈ digits, c.isDigit = true) :
    digitsValue digits = 0 ↔ ∀ c ∈ digits, c = '0' := by
  induction digits with
  | nil => simp [digitsValue]
  | cons c digits ih =>
    obtain ⟨hc, hdigits⟩ := List.forall_mem_cons.1 h
    have hzero : c = '0' ↔ c.toNat - 48 = 0 := by
      have := toNat_of_isDigit hc
      rw [← Char.toNat_inj]
      have hchar : '0'.toNat = 48 := rfl
      omega
    have hcons : digitsValue (c :: digits) = (c.toNat - 48) * 10 ^ digits.length + digitsValue digits := by
      simpa [digitsValue] using digitsValue_append [c] digits
    have hpow : 10 ^ digits.length ≠ 0 := Nat.ne_of_gt (Nat.pow_pos (by decide))
    rw [hcons, List.forall_mem_cons, hzero, ← ih hdigits, Nat.add_eq_zero_iff, Nat.mul_eq_zero,
      or_iff_left hpow]

/-- Digits that follow a number leave its value only if they add zeros to a zero. -/
lemma part?_append_iff {digits more : Text} {n : UInt32} (h : part? digits = some n) :
    part? (digits ++ more) = some n ↔ more = [] ∨ n = 0 ∧ ∀ c ∈ more, c = '0' := by
  obtain ⟨hne, hdigits, hvalue⟩ := part?_eq_some_iff.1 h
  rw [part?_eq_some_iff, digitsValue_append, hvalue]
  constructor
  · rintro ⟨-, hall, hsame⟩
    have hmore : ∀ c ∈ more, c.isDigit = true := fun c hc => hall c (List.mem_append_right digits hc)
    cases more with
    | nil => exact .inl rfl
    | cons c more =>
      have hpow : 10 ^ 1 ≤ 10 ^ (c :: more).length := Nat.pow_le_pow_right (by decide) (Nat.succ_pos _)
      have hmul : n.toNat * 10 ^ 1 ≤ n.toNat * 10 ^ (c :: more).length := Nat.mul_le_mul_left _ hpow
      have hzero : n.toNat = 0 := by omega
      refine .inr ⟨UInt32.toNat_inj.1 hzero, (digitsValue_eq_zero_iff hmore).1 (by omega)⟩
  · rintro (rfl | ⟨rfl, hzeros⟩)
    · simpa [digitsValue, hne] using hdigits
    · have hmore : ∀ c ∈ more, c.isDigit = true := fun c hc => hzeros c hc ▸ rfl
      refine ⟨List.append_ne_nil_of_left_ne_nil hne _, fun c hc => ?_, ?_⟩
      · exact (List.mem_append.1 hc).elim (hdigits c) (hmore c)
      · rw [(digitsValue_eq_zero_iff hmore).2 hzeros]
        simp

/-! ## Banners -/

/-- The parts of a banner: white space and three numbers. -/
structure Banner where
  margin : Text
  gap : Text
  major : Text
  minor : Text
  patch : Text
  margin_blank : ∀ c ∈ margin, isBlank c = true
  gap_blank : ∀ c ∈ gap, isBlank c = true
  numbers : ∀ n ∈ [major, minor, patch], n ≠ [] ∧ ∀ c ∈ n, isDigit c = true

namespace Banner

/-- What stands before the numbers. -/
def lead (b : Banner) : Text := "//".toList ++ (b.margin ++ ("Version:".toList ++ b.gap))

def source (b : Banner) : Text := b.lead ++ (b.major ++ '.' :: (b.minor ++ '.' :: b.patch))

/-- The release that the numbers are. -/
def release? (b : Banner) : Option Release := do
  return ⟨← part? b.major, ← part? b.minor, ← part? b.patch⟩

/-- A text is all of a run of digits between two other ones. -/
def IsRun (before digits after : Text) : Prop :=
  digits ≠ [] ∧ (∀ c ∈ digits, isDigit c = true) ∧ (∀ c ∈ before.getLast?, isDigit c = false) ∧
    ∀ c ∈ after.head?, isDigit c = false

/-- The banner heads a line of a text, and each of its numbers is all of a run of digits there. -/
structure Heads (b : Banner) (t front rest : Text) : Prop where
  text : t = front ++ (b.source ++ rest)
  line : ∀ c ∈ front.getLast?, c = '\n'
  major : IsRun (front ++ b.lead) b.major ('.' :: (b.minor ++ '.' :: b.patch) ++ rest)
  minor : IsRun (front ++ b.lead ++ b.major ++ ['.']) b.minor ('.' :: b.patch ++ rest)
  patch : IsRun (front ++ b.lead ++ b.major ++ ['.'] ++ b.minor ++ ['.']) b.patch rest

/-- The match of a banner. -/
def matchAt (b : Banner) (front : Text) : Match :=
  let major := Text.size (front ++ b.lead)
  let minor := Text.size (front ++ b.lead ++ b.major ++ ['.'])
  let patch := Text.size (front ++ b.lead ++ b.major ++ ['.'] ++ b.minor ++ ['.'])
  ⟨⟨front.size, front.size + b.source.size⟩,
    [⟨major, major + b.major.size⟩, ⟨minor, minor + b.minor.size⟩, ⟨patch, patch + b.patch.size⟩]⟩

/-- The banner with more digits in its last number. -/
def extend (b : Banner) (more : Text) (h : ∀ c ∈ more, isDigit c = true) : Banner where
  __ := b
  patch := b.patch ++ more
  numbers := by
    have hnumbers := b.numbers
    simp only [List.forall_mem_cons] at hnumbers ⊢
    obtain ⟨hmajor, hminor, ⟨hne, hdigits⟩, hnil⟩ := hnumbers
    refine ⟨hmajor, hminor, ⟨List.append_ne_nil_of_left_ne_nil hne _, fun c hc => ?_⟩, hnil⟩
    exact (List.mem_append.1 hc).elim (hdigits c) (h c)

variable {b : Banner} {t front rest more : Text} {captures : List Span}

lemma Heads.whole (h : b.Heads t front rest) : ∀ c ∈ rest.head?, isDigit c = false := h.patch.2.2.2

/-- White space or a colon stands before the first number and dots between them, so that none goes on past these. -/
lemma heads_of_whole (ht : t = front ++ (b.source ++ rest)) (hline : ∀ c ∈ front.getLast?, c = '\n')
    (hwhole : ∀ c ∈ rest.head?, isDigit c = false) : b.Heads t front rest := by
  have hnumbers := b.numbers
  simp only [List.forall_mem_cons] at hnumbers
  obtain ⟨⟨hmajor, hmajorDigits⟩, ⟨hminor, hminorDigits⟩, ⟨hpatch, hpatchDigits⟩, -⟩ := hnumbers
  have hlead : ∀ c ∈ (front ++ b.lead).getLast?, isDigit c = false := by
    intro c hc
    have hlast : (front ++ b.lead).getLast? = (':' :: b.gap).getLast? := by
      have hsplit : front ++ b.lead =
          (front ++ "//".toList ++ b.margin ++ "Version".toList) ++ ':' :: b.gap := by simp [lead]
      rw [hsplit, List.getLast?_append, List.getLast?_cons, Option.some_or]
    rw [hlast] at hc
    rcases List.mem_cons.1 (List.mem_of_getLast? hc) with rfl | hblank
    · decide
    · exact isDigit_eq_false_of_isBlank (b.gap_blank c hblank)
  have hbefore (t : Text) : ∀ c ∈ (t ++ ['.']).getLast?, isDigit c = false := by
    rw [List.getLast?_concat]
    rintro c ⟨⟩
    decide
  have hafter (t : Text) : ∀ c ∈ ('.' :: t).head?, isDigit c = false := by
    rintro c ⟨⟩
    decide
  exact ⟨ht, hline, ⟨hmajor, hmajorDigits, hlead, hafter _⟩, ⟨hminor, hminorDigits, hbefore _, hafter _⟩,
    ⟨hpatch, hpatchDigits, hbefore _, hwhole⟩⟩

lemma source_extend (h : ∀ c ∈ more, isDigit c = true) : (b.extend more h).source = b.source ++ more := by
  simp [source, lead, extend]

lemma release?_eq_some_iff {v : Release} : b.release? = some v ↔
    part? b.major = some v.major ∧ part? b.minor = some v.minor ∧ part? b.patch = some v.patch := by
  obtain ⟨major, minor, patch⟩ := v
  cases hmajor : part? b.major <;> cases hminor : part? b.minor <;> cases hpatch : part? b.patch <;>
    simp [release?, hmajor, hminor, hpatch]

lemma release?_extend_iff (h : ∀ c ∈ more, isDigit c = true) {v : Release} (hv : b.release? = some v) :
    (b.extend more h).release? = some v ↔ more = [] ∨ v.patch = 0 ∧ ∀ c ∈ more, c = '0' := by
  obtain ⟨hmajor, hminor, hpatch⟩ := release?_eq_some_iff.1 hv
  have hsame : (b.extend more h).release? = some v ↔ part? (b.patch ++ more) = some v.patch := by
    rw [release?_eq_some_iff, extend]
    simp [hmajor, hminor]
  rw [hsame, part?_append_iff hpatch]

/-- With all the digits that follow, a banner stands whole. -/
lemma heads_extend (ht : t = front ++ (b.source ++ rest)) (hline : ∀ c ∈ front.getLast?, c = '\n') :
    (b.extend (rest.takeWhile isDigit) fun _ => List.mem_takeWhile_imp).Heads t front
      (rest.dropWhile isDigit) := by
  refine heads_of_whole ?_ hline fun c hc => ?_
  · rw [source_extend, List.append_assoc, List.takeWhile_append_dropWhile, ht]
  · have := List.head?_dropWhile_not isDigit rest
    simpa [Option.mem_def.1 hc] using this

/-! ## Matches of the banner -/

lemma isLineStart_between :
    (between front rest captures).isLineStart = true ↔ ∀ c ∈ front.getLast?, c = '\n' := by
  rw [isLineStart, between]
  cases front.getLast? <;> simp

lemma prefers_blanks {s : Text} (hs : ∀ c ∈ s, isBlank c = true)
    (hrest : ∀ c ∈ rest.head?, isBlank c = false) :
    (anyNumber .blank).Prefers (between front (s ++ rest) captures) (between (front ++ s) rest captures) :=
  prefers_many hs (Nat.zero_le _) nofun (.inr hrest)

lemma prefers_number {n : Text} (hn : n ≠ [] ∧ ∀ c ∈ n, isDigit c = true)
    (hrest : ∀ c ∈ rest.head?, isDigit c = false) :
    (Pattern.capture (.oneOrMore .digit)).Prefers (between front (n ++ rest) captures)
      (between (front ++ n) rest (captures ++ [⟨front.size, front.size + n.size⟩])) :=
  Prefers.capture (prefers_many hn.2 (List.length_pos_iff.2 hn.1) nofun (.inr hrest))

/-- White space ends where a number begins. -/
lemma not_blank_of_number {n : Text} (hn : n ≠ [] ∧ ∀ c ∈ n, isDigit c = true) (rest : Text) :
    ∀ c ∈ (n ++ rest).head?, isBlank c = false := by
  obtain ⟨hne, hdigits⟩ := hn
  obtain ⟨d, n, rfl⟩ := List.exists_cons_of_ne_nil hne
  rintro c ⟨⟩
  rw [← Bool.not_eq_true]
  intro hblank
  have hdigit := hdigits d List.mem_cons_self
  rw [isDigit_eq_false_of_isBlank hblank] at hdigit
  cases hdigit

/-- The preferred way through the banner takes all of the last number. -/
lemma Heads.matchHere? (h : b.Heads t front rest) :
    banner.matchHere? (between front (b.source ++ rest) []) = some (b.matchAt front) := by
  have hnumbers := b.numbers
  simp only [List.forall_mem_cons] at hnumbers
  obtain ⟨hmajor, hminor, hpatch, -⟩ := hnumbers
  refine matchHere?_of_follows ?_
  have hsource : b.source ++ rest = "//".toList ++ (b.margin ++ ("Version:".toList ++ (b.gap ++
      (b.major ++ (['.'] ++ (b.minor ++ (['.'] ++ (b.patch ++ rest)))))))) := by simp [source, lead]
  have hend : front ++ b.source = front ++ "//".toList ++ b.margin ++ "Version:".toList ++ b.gap ++
      b.major ++ ['.'] ++ b.minor ++ ['.'] ++ b.patch := by simp [source, lead]
  have hlead : front ++ b.lead = front ++ "//".toList ++ b.margin ++ "Version:".toList ++ b.gap := by
    simp [lead]
  have hversion (t : Text) : ∀ c ∈ ("Version:".toList ++ t).head?, isBlank c = false := by
    rintro c ⟨⟩
    decide
  have hdot (t : Text) : ∀ c ∈ (['.'] ++ t).head?, isDigit c = false := by
    rintro c ⟨⟩
    decide
  rw [hsource, hend, hlead]
  refine .cons (prefers_lineStart (isLineStart_between.2 h.line)) ?_
  refine .cons (prefers_literal _) ?_
  refine .cons (prefers_blanks b.margin_blank (hversion _)) ?_
  refine .cons (prefers_literal _) ?_
  refine .cons (prefers_blanks b.gap_blank (not_blank_of_number hmajor _)) ?_
  refine .cons (prefers_number hmajor (hdot _)) ?_
  refine .cons (prefers_literal _) ?_
  refine .cons (prefers_number hminor (hdot _)) ?_
  refine .cons (prefers_literal _) ?_
  exact .cons (prefers_number hpatch h.whole) (.nil _)

/-- A text that the banner takes has its parts. -/
lemma exists_source_of_takes {m : Text} {spans : List Span} (h : banner.Takes front m rest spans) :
    (∀ c ∈ front.getLast?, c = '\n') ∧ ∃ b : Banner, m = b.source := by
  obtain ⟨_, _, _, _, ⟨rfl, -, hline⟩, h, rfl, -⟩ := h
  obtain ⟨_, _, _, _, ⟨rfl, -⟩, h, rfl, -⟩ := h
  obtain ⟨margin, _, _, _, ⟨hmargin, -⟩, h, rfl, -⟩ := h
  obtain ⟨_, _, _, _, ⟨rfl, -⟩, h, rfl, -⟩ := h
  obtain ⟨gap, _, _, _, ⟨hgap, -⟩, h, rfl, -⟩ := h
  obtain ⟨major, _, _, _, ⟨_, ⟨hmajor, hmajorLength, -⟩, -⟩, h, rfl, -⟩ := h
  obtain ⟨_, _, _, _, ⟨rfl, -⟩, h, rfl, -⟩ := h
  obtain ⟨minor, _, _, _, ⟨_, ⟨hminor, hminorLength, -⟩, -⟩, h, rfl, -⟩ := h
  obtain ⟨_, patch, _, _, ⟨rfl, -⟩, ⟨_, ⟨hpatch, hpatchLength, -⟩, -⟩, rfl, -⟩ := h
  refine ⟨isLineStart_between.1 hline, ⟨margin, gap, major, minor, patch, hmargin, hgap, ?_⟩, ?_⟩
  · simp only [List.forall_mem_cons]
    exact ⟨⟨List.length_pos_iff.1 hmajorLength, hmajor⟩, ⟨List.length_pos_iff.1 hminorLength, hminor⟩,
      ⟨List.length_pos_iff.1 hpatchLength, hpatch⟩, nofun⟩
  · simp [source, lead]

/-- The banner matches where one heads a line. -/
lemma matchHere?_eq_some_iff {s : Text} {m : Match} : banner.matchHere? (between front s []) = some m ↔
    ∃ (b : Banner) (rest : Text), b.Heads (front ++ s) front rest ∧ m = b.matchAt front := by
  constructor
  · intro h
    obtain ⟨_, rest, rfl, htakes, -⟩ := takes_of_matchHere? h
    obtain ⟨hline, b, rfl⟩ := exists_source_of_takes htakes
    have hheads := heads_extend (Eq.refl (front ++ (b.source ++ rest))) hline
    refine ⟨_, _, hheads, ?_⟩
    have hmatch := hheads.matchHere?
    rw [← List.append_cancel_left hheads.text, h] at hmatch
    exact Option.some.inj hmatch
  · rintro ⟨b, rest, hheads, rfl⟩
    rw [List.append_cancel_left hheads.text]
    exact hheads.matchHere?

lemma Heads.ofMatch?_matchAt (h : b.Heads t front rest) : ofMatch? t (b.matchAt front) = b.release? := by
  have hslice {before n after : Text} (ht : t = before ++ n ++ after) :
      t.slice? before.size (before.size + n.size) = some n := by rw [ht, Text.slice?_append]
  have hmajor : t = front ++ b.lead ++ b.major ++ ('.' :: (b.minor ++ '.' :: b.patch) ++ rest) := by
    rw [h.text]
    simp [source]
  have hminor : t = front ++ b.lead ++ b.major ++ ['.'] ++ b.minor ++ ('.' :: b.patch ++ rest) := by
    rw [h.text]
    simp [source]
  have hpatch : t = front ++ b.lead ++ b.major ++ ['.'] ++ b.minor ++ ['.'] ++ b.patch ++ rest := by
    rw [h.text]
    simp [source]
  simp only [ofMatch?, matchAt, hslice hmajor, hslice hminor, hslice hpatch, release?, Option.bind_eq_bind,
    Option.bind_some]

/-- No banner heads an earlier line. -/
structure IsFirst (b : Banner) (t front rest : Text) : Prop extends b.Heads t front rest where
  first : ∀ (b' : Banner) (front' rest' : Text), b'.Heads t front' rest' → front.length ≤ front'.length

end Banner

/-- The release that is read is that of the first banner within reach. -/
theorem ofBanner?_eq_some_iff {t : Text} {v : Release} : ofBanner? t = some v ↔
    ∃ (b : Banner) (front rest : Text), b.IsFirst (t.within bannerReach) front rest ∧ b.release? = some v := by
  have hhead (m : Match) : (banner.everywhere none 0 (t.within bannerReach)).head? = some m ↔
      ∃ s rest, t.within bannerReach = s ++ rest ∧ banner.matchHere? (between s rest []) = some m ∧
        ∀ s' rest', t.within bannerReach = s' ++ rest' → s'.length < s.length →
          banner.matchHere? (between s' rest' []) = none := @head?_everywhere_eq_some_iff banner [] m _
  rw [ofBanner?_eq, Option.bind_eq_some_iff]
  constructor
  · rintro ⟨m, hm, hv⟩
    obtain ⟨front, s, ht, hmatch, hfirst⟩ := (hhead m).1 hm
    obtain ⟨b, rest, hheads, rfl⟩ := Banner.matchHere?_eq_some_iff.1 hmatch
    rw [← ht] at hheads
    refine ⟨b, front, rest, ⟨hheads, fun b' front' rest' hheads' => ?_⟩, hheads.ofMatch?_matchAt ▸ hv⟩
    by_contra hlt
    have hnone := hfirst front' _ hheads'.text (Nat.lt_of_not_le hlt)
    rw [hheads'.matchHere?] at hnone
    cases hnone
  · rintro ⟨b, front, rest, ⟨hheads, hfirst⟩, hv⟩
    refine ⟨b.matchAt front, (hhead _).2 ⟨front, _, hheads.text, hheads.matchHere?, ?_⟩,
      hheads.ofMatch?_matchAt.trans hv⟩
    intro front' s' ht hlt
    refine Option.eq_none_iff_forall_ne_some.2 fun m hm => ?_
    obtain ⟨b', rest', hheads', -⟩ := Banner.matchHere?_eq_some_iff.1 hm
    rw [← ht] at hheads'
    exact absurd (hfirst b' front' rest' hheads') (Nat.not_le_of_lt hlt)

/-! ## What the banner states -/

/-- A banner at a place of a text states the release. -/
def StatesAt (t front : Text) (v : Release) : Prop :=
  ∃ (b : Banner) (rest : Text), b.Heads t front rest ∧ b.release? = some v

def States (t : Text) (v : Release) : Prop := ∃ front, StatesAt t front v

variable {t front rest : Text} {v : Release} {b : Banner}

/-- No two banners at one place state different releases. -/
lemma Banner.Heads.statesAt_iff (h : b.Heads t front rest) : StatesAt t front v ↔ b.release? = some v := by
  constructor
  · rintro ⟨b', rest', h', hv⟩
    have hmatch := h.matchHere?
    rw [List.append_cancel_left (h.text.symm.trans h'.text), h'.matchHere?, Option.some.injEq] at hmatch
    rw [← h.ofMatch?_matchAt, ← hmatch, h'.ofMatch?_matchAt, hv]
  · exact fun hv => ⟨b, rest, h, hv⟩

/-- The release that is read from the first banner within reach is what the banner states unless digits
follow that are out of reach, other than zeros after a zero. So the text states the release unless the banner
is cut within its last number and no other line states it. -/
theorem states_iff_of_ofBanner? (h : ofBanner? t = some v) :
    ∃ (b : Banner) (front rest tail : Text), t = t.within bannerReach ++ tail ∧
      b.IsFirst (t.within bannerReach) front rest ∧ b.release? = some v ∧
      let more := (rest ++ tail).takeWhile isDigit
      (StatesAt t front v ↔ more = [] ∨ v.patch = 0 ∧ ∀ c ∈ more, c = '0') ∧
      (States t v ↔ (more = [] ∨ v.patch = 0 ∧ ∀ c ∈ more, c = '0') ∨
        ∃ other, other ≠ front ∧ StatesAt t other v) := by
  obtain ⟨b, front, rest, hfirst, hv⟩ := ofBanner?_eq_some_iff.1 h
  obtain ⟨tail, ht⟩ : ∃ tail, t = t.within bannerReach ++ tail := by
    obtain ⟨a, tail, ht, ha, -⟩ := Text.slice?_eq_some.1 (Text.slice?_boundaryBefore t bannerReach)
    rw [Text.size_eq_zero.1 ha, List.nil_append] at ht
    exact ⟨tail, ht⟩
  have hwhole : t = front ++ (b.source ++ (rest ++ tail)) := by
    conv_lhs => rw [ht, hfirst.text]
    simp
  have hstates : StatesAt t front v ↔ (rest ++ tail).takeWhile isDigit = [] ∨
      v.patch = 0 ∧ ∀ c ∈ (rest ++ tail).takeWhile isDigit, c = '0' := by
    rw [(Banner.heads_extend hwhole hfirst.line).statesAt_iff, Banner.release?_extend_iff _ hv]
  refine ⟨b, front, rest, tail, ht, hfirst, hv, hstates, ?_⟩
  rw [← hstates]
  constructor
  · rintro ⟨other, hother⟩
    by_cases hsame : other = front
    · exact .inl (hsame ▸ hother)
    · exact .inr ⟨other, hsame, hother⟩
  · rintro (hfront | ⟨other, -, hother⟩)
    · exact ⟨front, hfront⟩
    · exact ⟨other, hother⟩

/-- A banner whose last digit is out of reach. -/
def cutBanner : Text := List.replicate 4079 '\n' ++ "// Version: 1.0.71".toList

/-- The part of the banner that is within reach. -/
def cutBannerHead : Banner where
  margin := [' ']
  gap := [' ']
  major := ['1']
  minor := ['0']
  patch := ['7']
  margin_blank := List.forall_mem_singleton.2 rfl
  gap_blank := List.forall_mem_singleton.2 rfl
  numbers := by
    have hdigits : isDigit '1' = true ∧ isDigit '0' = true ∧ isDigit '7' = true := by decide
    simpa using hdigits

/-- A banner stands where its slashes do. -/
lemma Banner.Heads.front_eq {s : Text} {n : Nat} (hs : '/' ∉ s)
    (h : b.Heads (List.replicate n '\n' ++ '/' :: '/' :: s) front rest) : front = List.replicate n '\n' := by
  obtain ⟨w, hw⟩ : ∃ w, b.source ++ rest = '/' :: '/' :: w := ⟨_, rfl⟩
  have htext := h.text
  rw [hw] at htext
  rcases List.append_eq_append_iff.1 htext with ⟨k, hfront, hk⟩ | ⟨k, hnewlines, hk⟩
  · match k with
    | [] => simpa using hfront
    | [x] =>
      obtain ⟨-, rfl⟩ : '/' = x ∧ s = '/' :: w := by simpa using hk
      simp at hs
    | x :: y :: k =>
      obtain ⟨-, -, rfl⟩ : '/' = x ∧ '/' = y ∧ s = k ++ '/' :: '/' :: w := by simpa using hk
      simp at hs
  · cases k with
    | nil => simpa using hnewlines.symm
    | cons x k =>
      have hslash : x ∈ List.replicate n '\n' := by simp [hnewlines]
      rw [List.eq_of_mem_replicate hslash] at hk
      simp at hk

lemma within_cutBanner : cutBanner.within bannerReach = List.replicate 4079 '\n' ++ cutBannerHead.source := by
  have hnewlines (n : Nat) : Text.size (List.replicate n '\n') = n := by
    induction n with
    | zero => rfl
    | succ n ih => rw [List.replicate_succ, Text.size_cons, ih, Nat.add_comm]; rfl
  have hsize : bannerReach = Text.size (List.replicate 4079 '\n' ++ cutBannerHead.source) := by
    rw [Text.size_append, hnewlines]
    rfl
  have hsplit : cutBanner = (List.replicate 4079 '\n' ++ cutBannerHead.source) ++ ['1'] := by
    rw [List.append_assoc]
    rfl
  rw [hsize, hsplit, Text.within_append]

/-- The release that is read from a cut banner is not stated. -/
theorem not_states_cutBanner : ofBanner? cutBanner = some ⟨1, 0, 7⟩ ∧ ¬States cutBanner ⟨1, 0, 7⟩ := by
  have hline : ∀ c ∈ (List.replicate 4079 '\n').getLast?, c = '\n' := fun c hc =>
    List.eq_of_mem_replicate (List.mem_of_getLast? hc)
  have hhead {b : Banner} {front rest : Text} (h : b.Heads (cutBanner.within bannerReach) front rest) :
      front = List.replicate 4079 '\n' := by
    rw [within_cutBanner] at h
    exact Banner.Heads.front_eq (s := " Version: 1.0.7".toList) (by decide) h
  have hfirst : cutBannerHead.IsFirst (cutBanner.within bannerReach) (List.replicate 4079 '\n') [] :=
    ⟨Banner.heads_of_whole (by rw [within_cutBanner, List.append_nil]) hline nofun,
      fun b' front' rest' h => by rw [hhead h]⟩
  have hwhole : (cutBannerHead.extend ['1'] (List.forall_mem_singleton.2 rfl)).Heads cutBanner
      (List.replicate 4079 '\n') [] := Banner.heads_of_whole rfl hline nofun
  have hread : ofBanner? cutBanner = some ⟨1, 0, 7⟩ :=
    ofBanner?_eq_some_iff.2 ⟨cutBannerHead, _, [], hfirst, by decide⟩
  refine ⟨hread, fun hstates => ?_⟩
  obtain ⟨b, front, rest, tail, -, hfirst', -, hat, hiff⟩ := states_iff_of_ofBanner? hread
  obtain rfl := hhead hfirst'.toHeads
  rcases hiff.1 hstates with hmore | ⟨other, hother, b', rest', h', -⟩
  · exact absurd (hwhole.statesAt_iff.1 (hat.2 hmore)) (by decide)
  · exact hother (Banner.Heads.front_eq (s := " Version: 1.0.71".toList) (by decide) h')

end Release
end Retouch
