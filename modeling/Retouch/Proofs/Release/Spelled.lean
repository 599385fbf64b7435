import Retouch.Proofs.Release.Stated
import Retouch.Proofs.Text.Pieces

/-! The texts that spell a release. White space around a release, `v`s before it and a suffix after it do not
count; what is left are one to three decimal numbers of at most 32 bits with dots between them. Every release
is read back from its own text. -/
namespace Retouch.Release

open Text

variable {t digits : Text} {parts : List Text} {v : Release} {n : UInt32} {c : Char}

/-- Decimal digits whose value fits 32 bits. -/
structure IsPart (digits : Text) : Prop where
  nonempty : digits ≠ []
  decimal : ∀ c ∈ digits, c.isDigit = true
  small : Nat.ofDigitChars 10 digits 0 < 2 ^ 32

/-- One to three parts give the numbers of a release. Those that are missing are zero. -/
structure Gives (parts : List Text) (v : Release) : Prop where
  nonempty : parts ≠ []
  few : parts.length ≤ 3
  isPart : ∀ part ∈ parts, IsPart part
  values : [v.major.toNat, v.minor.toNat, v.patch.toNat] =
    parts.map (Nat.ofDigitChars 10 · 0) ++ List.replicate (3 - parts.length) 0

/-- A text spells a release: white space around it and `v`s at its beginning left out, it is the parts of the
release between dots, and then nothing or a suffix. -/
def Spells (t : Text) (v : Release) : Prop :=
  ∃ vs parts suffix, TrimsTo t (vs ++ (join ['.'] parts ++ suffix)) ∧ (∀ c ∈ vs, c = 'v') ∧ Gives parts v ∧
    ∀ c ∈ suffix.head?, c = '-' ∨ c = '+'

/-! ## Parts -/

lemma part?_eq_some_iff_isPart : part? digits = some n ↔ IsPart digits ∧ Nat.ofDigitChars 10 digits 0 = n.toNat := by
  have hvalue : digitsValue digits = Nat.ofDigitChars 10 digits 0 := rfl
  rw [part?_eq_some_iff, hvalue]
  constructor
  · rintro ⟨hne, hdigits, hn⟩
    exact ⟨⟨hne, hdigits, hn ▸ n.toNat_lt⟩, hn⟩
  · rintro ⟨⟨hne, hdigits, -⟩, hn⟩
    exact ⟨hne, hdigits, hn⟩

/-- The release of one to three parts. -/
def ofParts? : List Text → Option Release
  | [a] => do return ⟨← part? a, 0, 0⟩
  | [a, b] => do return ⟨← part? a, ← part? b, 0⟩
  | [a, b, c] => do return ⟨← part? a, ← part? b, ← part? c⟩
  | _ => none

/-- Parts are read as numbers if each of them is one, and zeros may follow. -/
lemma map_part?_eq_iff (zeros : Nat) {numbers : List UInt32} :
    parts.map part? ++ List.replicate zeros (some 0) = numbers.map some ↔ (∀ part ∈ parts, IsPart part) ∧
      numbers.map (·.toNat) = parts.map (Nat.ofDigitChars 10 · 0) ++ List.replicate zeros 0 := by
  induction parts generalizing numbers with
  | nil =>
    have hzero (n : UInt32) : n.toNat = 0 ↔ n = 0 := UInt32.toNat_inj (b := 0)
    simp only [List.map_nil, List.nil_append, List.not_mem_nil, IsEmpty.forall_iff, implies_true, true_and]
    rw [eq_comm, List.eq_replicate_iff, List.eq_replicate_iff]
    simp [hzero]
  | cons part parts ih =>
    cases numbers with
    | nil => simp
    | cons n numbers =>
      simp only [List.map_cons, List.cons_append, List.cons.injEq, List.forall_mem_cons, ih,
        part?_eq_some_iff_isPart, eq_comm (a := n.toNat)]
      constructor
      · rintro ⟨⟨hpart, hn⟩, hparts, hnumbers⟩
        exact ⟨⟨hpart, hparts⟩, hn, hnumbers⟩
      · rintro ⟨⟨hpart, hparts⟩, hn, hnumbers⟩
        exact ⟨⟨hpart, hn⟩, hparts, hnumbers⟩

lemma gives_iff : Gives parts v ↔ parts ≠ [] ∧ parts.length ≤ 3 ∧
    parts.map part? ++ List.replicate (3 - parts.length) (some 0) = [some v.major, some v.minor, some v.patch] := by
  let numbers := [v.major, v.minor, v.patch]
  have hiff : parts.map part? ++ List.replicate (3 - parts.length) (some 0) = numbers.map some ↔
      (∀ part ∈ parts, IsPart part) ∧ numbers.map (·.toNat) =
        parts.map (Nat.ofDigitChars 10 · 0) ++ List.replicate (3 - parts.length) 0 := map_part?_eq_iff _
  constructor
  · rintro ⟨hne, hfew, hpart, hvalues⟩
    exact ⟨hne, hfew, hiff.2 ⟨hpart, hvalues⟩⟩
  · rintro ⟨hne, hfew, hread⟩
    obtain ⟨hpart, hvalues⟩ := hiff.1 hread
    exact ⟨hne, hfew, hpart, hvalues⟩

lemma ofParts?_eq_some_iff : ofParts? parts = some v ↔ Gives parts v := by
  obtain ⟨major, minor, patch⟩ := v
  rw [gives_iff]
  match parts with
  | [] => simp [ofParts?]
  | [a] => cases ha : part? a <;> simp [ofParts?, ha]
  | [a, b] => cases ha : part? a <;> cases hb : part? b <;> simp [ofParts?, ha, hb]
  | [a, b, c] =>
    cases ha : part? a <;> cases hb : part? b <;> cases hc : part? c <;> simp [ofParts?, ha, hb, hc]
  | _ :: _ :: _ :: _ :: _ => simp [ofParts?]

/-! ## What stands around the parts -/

/-- What is left of a text without white space around it, `v`s before it and a suffix after it. -/
def core (t : Text) : Text := ((trim t).dropWhile (· == 'v')).takeWhile fun c => c != '-' && c != '+'

lemma parse?_eq (t : Text) : parse? t = ofParts? (splitAll (core t) (· == '.')) := rfl

/-- Digits and dots are no white space, and neither `v`, `-` nor `+`. -/
lemma of_isDigit_or_dot (h : c.isDigit = true ∨ c = '.') :
    isBlank c = false ∧ c ≠ 'v' ∧ c ≠ '-' ∧ c ≠ '+' := by
  rcases h with h | rfl
  · refine ⟨?_, ?_, ?_, ?_⟩
    · have hdigit := toNat_of_isDigit h
      simp [isBlank]
      omega
    · rintro rfl
      cases h
    · rintro rfl
      cases h
    · rintro rfl
      cases h
  · decide

lemma IsPart.exists_cons (h : IsPart digits) : ∃ c rest, digits = c :: rest ∧ c.isDigit = true := by
  obtain ⟨c, rest, rfl⟩ := List.exists_cons_of_ne_nil h.nonempty
  exact ⟨c, rest, rfl, h.decimal c List.mem_cons_self⟩

lemma mem_join (h : c ∈ join ['.'] parts) (hparts : ∀ part ∈ parts, IsPart part) :
    c.isDigit = true ∨ c = '.' := by
  induction parts with
  | nil => cases h
  | cons part parts ih =>
    obtain ⟨hpart, hparts⟩ := List.forall_mem_cons.1 hparts
    cases parts with
    | nil => exact .inl (hpart.decimal c (by simpa [join] using h))
    | cons next parts =>
      rw [join_cons_cons, List.singleton_append, List.mem_append, List.mem_cons] at h
      rcases h with h | h | h
      · exact .inl (hpart.decimal c h)
      · exact .inr h
      · exact ih h hparts

/-- The parts begin with a digit. -/
lemma Gives.exists_join_eq_cons (h : Gives parts v) : ∃ c rest, join ['.'] parts = c :: rest ∧ c.isDigit = true := by
  obtain ⟨part, later, rfl⟩ := List.exists_cons_of_ne_nil h.nonempty
  obtain ⟨c, rest, rfl, hc⟩ := (h.isPart part List.mem_cons_self).exists_cons
  cases later with
  | nil => exact ⟨c, rest, by simp [join], hc⟩
  | cons next later => exact ⟨c, rest ++ (['.'] ++ join ['.'] (next :: later)), by rw [join_cons_cons]; rfl, hc⟩

lemma Gives.splitAll_join (h : Gives parts v) : splitAll (join ['.'] parts) (· == '.') = parts := by
  rw [splitAll_eq_splitOnP]
  refine List.splitOn_intercalate '.' (fun part hpart hdot => ?_) h.nonempty
  cases (h.isPart part hpart).decimal '.' hdot

lemma core_of_spelled {vs suffix : Text} (hvs : ∀ c ∈ vs, c = 'v') (h : Gives parts v)
    (hsuffix : ∀ c ∈ suffix.head?, c = '-' ∨ c = '+')
    (htrim : TrimsTo t (vs ++ (join ['.'] parts ++ suffix))) : core t = join ['.'] parts := by
  obtain ⟨c, rest, hjoin, hc⟩ := h.exists_join_eq_cons
  have hfirst : (join ['.'] parts ++ suffix).dropWhile (· == 'v') = join ['.'] parts ++ suffix :=
    dropWhile_of_head? (by simpa [hjoin] using (of_isDigit_or_dot (.inl hc)).2.1)
  have hmiddle : ∀ c ∈ join ['.'] parts, (c != '-' && c != '+') = true := fun c hc => by
    simpa using (of_isDigit_or_dot (mem_join hc h.isPart)).2.2
  have hend : suffix.takeWhile (fun c => c != '-' && c != '+') = [] := by
    cases suffix with
    | nil => rfl
    | cons c suffix => exact List.takeWhile_cons_of_neg (by rcases hsuffix c rfl with rfl | rfl <;> decide)
  rw [core, trim_eq_of_trimsTo htrim, List.dropWhile_append_of_pos (by simpa using hvs), hfirst,
    List.takeWhile_append_of_pos hmiddle, hend, List.append_nil]

lemma parse?_eq_some_of_spells (h : Spells t v) : parse? t = some v := by
  obtain ⟨vs, parts, suffix, htrim, hvs, hgives, hsuffix⟩ := h
  rw [parse?_eq, core_of_spelled hvs hgives hsuffix htrim, hgives.splitAll_join]
  exact ofParts?_eq_some_iff.2 hgives

lemma spells_of_parse? (h : parse? t = some v) : Spells t v := by
  rw [parse?_eq, ofParts?_eq_some_iff] at h
  refine ⟨(trim t).takeWhile (· == 'v'), splitAll (core t) (· == '.'),
    ((trim t).dropWhile (· == 'v')).dropWhile fun c => c != '-' && c != '+', ?_, fun c hc => ?_, h, fun c hc => ?_⟩
  · rw [join_splitAll, core, List.takeWhile_append_dropWhile, List.takeWhile_append_dropWhile]
    exact trimsTo_trim t
  · have hv := List.mem_takeWhile_imp hc
    exact beq_iff_eq.1 hv
  · have hnot := List.head?_dropWhile_not (fun c => c != '-' && c != '+') ((trim t).dropWhile (· == 'v'))
    rw [hc] at hnot
    simpa [Decidable.or_iff_not_imp_left] using hnot

/-! ## A release as it is written -/

lemma isPart_toDigits (n : UInt32) : IsPart (Nat.toDigits 10 n.toNat) where
  nonempty := Nat.toDigits_ne_nil
  decimal _ := Nat.isDigit_of_mem_toDigits (by decide) (by decide)
  small := by
    rw [Nat.ofDigitChars_ten_toDigits]
    exact n.toNat_lt

lemma spells_render (v : Release) : Spells v.render.toList v := by
  let parts := [v.major, v.minor, v.patch].map fun n => Nat.toDigits 10 n.toNat
  have hrender : v.render.toList = join ['.'] parts := by simp [render, join, parts]
  have hpart : ∀ part ∈ parts, IsPart part := List.forall_mem_map.2 fun n _ => isPart_toDigits n
  have hsolid : ∀ c ∈ join ['.'] parts, isBlank c = false := fun c hc => (of_isDigit_or_dot (mem_join hc hpart)).1
  refine ⟨[], parts, [], ⟨⟨[], [], by simp [hrender], by simp⟩, fun c hc => ?_, fun c hc => ?_⟩, by simp,
    ⟨by simp [parts], by simp [parts], hpart, by simp [parts]⟩, by simp⟩
  · rw [List.nil_append, List.append_nil] at hc
    exact hsolid c (List.mem_of_mem_head? hc)
  · rw [List.nil_append, List.append_nil] at hc
    exact hsolid c (List.mem_of_mem_getLast? hc)

/-- A release is read from exactly the texts that spell it, with the values of its parts, and from no other text
any release is read. Every release is read back as it is written. -/
theorem parse?_eq_some_iff_spells (t : Text) (v : Release) : (parse? t = some v ↔ Spells t v) ∧
    (parse? t = none ↔ ∀ w, ¬Spells t w) ∧ parse? v.render.toList = some v := by
  have hiff (v : Release) : parse? t = some v ↔ Spells t v := ⟨spells_of_parse?, parse?_eq_some_of_spells⟩
  refine ⟨hiff v, ?_, parse?_eq_some_of_spells (spells_render v)⟩
  rw [Option.eq_none_iff_forall_ne_some]
  exact forall_congr' fun w => not_congr (hiff w)

example : parse? " v1.02-beta.7 ".toList = some ⟨1, 2, 0⟩ := by decide

/-- A number that does not fit 32 bits is not cut off. -/
example : parse? "1.4294967296".toList = none := by decide

end Retouch.Release
