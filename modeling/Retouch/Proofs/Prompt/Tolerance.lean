import Mathlib.Tactic.IntervalCases
import Retouch.Proofs.Pattern.Takes
import Retouch.Proofs.Prompt.Found

/-! What the matcher takes for a text. Each character has a few forms; the matcher of the text takes the
texts that are made of one form for each character, and no others. -/
namespace Retouch

/-- The text is made of one part for each member of a list, in order. -/
def Text.MadeOf {α : Type} (part : α → Text → Prop) : List α → Text → Prop
  | [], m => m = []
  | a :: as, m => ∃ m₁ m₂, part a m₁ ∧ MadeOf part as m₂ ∧ m = m₁ ++ m₂

namespace Pattern

variable {p : Pattern} {ps qs : List Pattern} {front m rest : Text} {spans : List Span}

lemma takes_all_cons : (all (p :: ps)).Takes front m rest spans ↔
    ∃ m₁ m₂ spans₁ spans₂, p.Takes front m₁ (m₂ ++ rest) spans₁ ∧
      (all ps).Takes (front ++ m₁) m₂ rest spans₂ ∧ m = m₁ ++ m₂ ∧ spans = spans₁ ++ spans₂ := by
  cases ps with
  | nil => simp [Pattern.all, Takes]
  | cons q ps => rfl

lemma takes_all_append : (all (ps ++ qs)).Takes front m rest spans ↔
    ∃ m₁ m₂ spans₁ spans₂, (all ps).Takes front m₁ (m₂ ++ rest) spans₁ ∧
      (all qs).Takes (front ++ m₁) m₂ rest spans₂ ∧ m = m₁ ++ m₂ ∧ spans = spans₁ ++ spans₂ := by
  induction ps generalizing front m spans with
  | nil => simp [Pattern.all, Takes]
  | cons p ps ih =>
    rw [List.cons_append, takes_all_cons]
    constructor
    · rintro ⟨m₁, m₂, spans₁, spans₂, hp, hrest, rfl, rfl⟩
      obtain ⟨m₂, m₃, spans₂, spans₃, hps, hqs, rfl, rfl⟩ := ih.1 hrest
      refine ⟨m₁ ++ m₂, m₃, spans₁ ++ spans₂, spans₃, ?_, by simpa using hqs, by simp, by simp⟩
      exact takes_all_cons.2 ⟨m₁, m₂, spans₁, spans₂, by simpa using hp, hps, rfl, rfl⟩
    · rintro ⟨m', m₃, spans', spans₃, hfirst, hqs, rfl, rfl⟩
      obtain ⟨m₁, m₂, spans₁, spans₂, hp, hps, rfl, rfl⟩ := takes_all_cons.1 hfirst
      refine ⟨m₁, m₂ ++ m₃, spans₁, spans₂ ++ spans₃, by simpa using hp, ?_, by simp, by simp⟩
      exact ih.2 ⟨m₂, m₃, spans₂, spans₃, hps, by simpa using hqs, rfl, rfl⟩

lemma takes_all_map {α : Type} {f : α → Pattern} {part : α → Text → Prop}
    (h : ∀ a front m rest spans, (f a).Takes front m rest spans ↔ part a m ∧ spans = [])
    (as : List α) : (all (as.map f)).Takes front m rest spans ↔ Text.MadeOf part as m ∧ spans = [] := by
  induction as generalizing front m spans with
  | nil => rfl
  | cons a as ih =>
    rw [List.map_cons, takes_all_cons]
    constructor
    · rintro ⟨m₁, m₂, spans₁, spans₂, ha, has, rfl, rfl⟩
      obtain ⟨hpart, rfl⟩ := (h ..).1 ha
      obtain ⟨hparts, rfl⟩ := ih.1 has
      exact ⟨⟨m₁, m₂, hpart, hparts, rfl⟩, rfl⟩
    · rintro ⟨⟨m₁, m₂, hpart, hparts, rfl⟩, rfl⟩
      exact ⟨m₁, m₂, [], [], (h ..).2 ⟨hpart, rfl⟩, ih.2 ⟨hparts, rfl⟩, rfl, rfl⟩

lemma takes_literal {u : Text} : (literal u).Takes front m rest spans ↔ m = u ∧ spans = [] := Iff.rfl

lemma takes_one {cls : CharClass} : (many cls 1 (some 1)).Takes front m rest spans ↔
    (∃ x, cls.contains x = true ∧ m = [x]) ∧ spans = [] := by
  rw [Takes]
  constructor
  · rintro ⟨hm, hleast, hmost, rfl⟩
    obtain ⟨x, rfl⟩ := List.length_eq_one_iff.1 (Nat.le_antisymm (hmost 1 rfl) hleast)
    exact ⟨⟨x, hm x List.mem_cons_self, rfl⟩, rfl⟩
  · rintro ⟨⟨x, hx, rfl⟩, rfl⟩
    simpa using hx

/-- A run of one character. -/
lemma takes_run {x : Char} {least most : Nat} :
    (many (.oneOf [x]) least (some most)).Takes front m rest spans ↔
      (∃ n, least ≤ n ∧ n ≤ most ∧ m = List.replicate n x) ∧ spans = [] := by
  have hclass : (∀ y ∈ m, (CharClass.oneOf [x]).contains y = true) ↔ ∀ y ∈ m, y = x := by
    simp [CharClass.contains]
  rw [Takes, hclass]
  constructor
  · rintro ⟨hm, hleast, hmost, rfl⟩
    exact ⟨⟨m.length, hleast, hmost most rfl, List.eq_replicate_iff.2 ⟨rfl, hm⟩⟩, rfl⟩
  · rintro ⟨⟨n, hleast, hmost, rfl⟩, rfl⟩
    simp [hleast, hmost]

end Pattern

namespace Prompt

open Pattern Literal

/-- A hexadecimal digit in either case. -/
def DigitForm (c : Char) (m : Text) : Prop := m = [c] ∨ m = [c.toUpper]

/-- The escape of a unit, with digits in either case. -/
def UnitForm (u : Nat) (m : Text) : Prop :=
  ∃ digits, Text.MadeOf DigitForm (Text.hexPadded 4 u) digits ∧ m = '\\' :: 'u' :: digits

/-- The forms of a character of a prompt in the source. -/
inductive Form : Char → Text → Prop
  | self (c : Char) : Form c [c]
  | feed : Form '\n' ['\\', 'n']
  | escape {c : Char} : c ∈ ['"', '\'', '\x60', '\\'] → Form c ['\\', c]
  | units {c : Char} {m : Text} :
    ¬c.toNat < 128 → Text.MadeOf UnitForm (Text.units16 c) m → Form c m

variable {c : Char} {t front m rest : Text} {spans : List Span}

lemma takes_hexDigit (c : Char) (front m rest : Text) (spans : List Span) :
    (hexDigit c).Takes front m rest spans ↔ DigitForm c m ∧ spans = [] := by
  rw [hexDigit, takes_one]
  simp [CharClass.contains, DigitForm]

lemma takes_unitPattern (u : Nat) (front m rest : Text) (spans : List Span) :
    (unitPattern u).Takes front m rest spans ↔ UnitForm u m ∧ spans = [] := by
  rw [unitPattern, takes_all_cons]
  constructor
  · rintro ⟨m₁, m₂, spans₁, spans₂, ⟨rfl, rfl⟩, hdigits, rfl, rfl⟩
    obtain ⟨hforms, rfl⟩ := (takes_all_map takes_hexDigit _).1 hdigits
    exact ⟨⟨m₂, hforms, rfl⟩, rfl⟩
  · rintro ⟨⟨digits, hdigits, rfl⟩, rfl⟩
    exact ⟨['\\', 'u'], digits, [], [], ⟨rfl, rfl⟩,
      (takes_all_map takes_hexDigit _).2 ⟨hdigits, rfl⟩, rfl, rfl⟩

lemma form_feed_iff : Form '\n' m ↔ m = ['\n'] ∨ m = ['\\', 'n'] := by
  constructor
  · rintro (- | - | hc | ⟨hascii, -⟩)
    · exact .inl rfl
    · exact .inr rfl
    · exact absurd hc (by decide)
    · exact absurd (by decide) hascii
  · rintro (rfl | rfl)
    · exact .self _
    · exact .feed

lemma form_escape_iff (hc : c ∈ ['"', '\'', '\x60', '\\']) : Form c m ↔ m = [c] ∨ m = ['\\', c] := by
  have hall : ['"', '\'', '\x60', '\\'].all (fun d => d ≠ '\n' && d.toNat < 128) = true := by decide
  obtain ⟨hfeed, hlow⟩ : c ≠ '\n' ∧ c.toNat < 128 := by simpa using List.all_eq_true.1 hall c hc
  constructor
  · rintro (- | - | - | ⟨hascii, -⟩)
    · exact .inl rfl
    · exact absurd rfl hfeed
    · exact .inr rfl
    · exact absurd hlow hascii
  · rintro (rfl | rfl)
    · exact .self c
    · exact .escape hc

lemma form_ascii_iff (hc : c ∉ ['\n', '"', '\'', '\x60', '\\']) (hascii : c.toNat < 128) :
    Form c m ↔ m = [c] := by
  constructor
  · rintro (- | - | hescape | ⟨hbeyond, -⟩)
    · rfl
    · exact absurd List.mem_cons_self hc
    · exact absurd (List.mem_cons_of_mem _ hescape) hc
    · exact absurd hascii hbeyond
  · rintro rfl
    exact .self c

lemma form_beyond_iff (hbeyond : ¬c.toNat < 128) :
    Form c m ↔ m = [c] ∨ Text.MadeOf UnitForm (Text.units16 c) m := by
  have hall : ['\n', '"', '\'', '\x60', '\\'].all (·.toNat < 128) = true := by decide
  have hmem : c ∉ ['\n', '"', '\'', '\x60', '\\'] := fun hc =>
    hbeyond (by simpa using List.all_eq_true.1 hall c hc)
  constructor
  · rintro (- | - | hescape | ⟨-, hunits⟩)
    · exact .inl rfl
    · exact absurd List.mem_cons_self hmem
    · exact absurd (List.mem_cons_of_mem _ hescape) hmem
    · exact .inr hunits
  · rintro (rfl | hunits)
    · exact .self c
    · exact .units hbeyond hunits

/-- The pattern of a character takes its forms. -/
theorem takes_tolerant (c : Char) (front m rest : Text) (spans : List Span) :
    (tolerant c).Takes front m rest spans ↔ Form c m ∧ spans = [] := by
  unfold tolerant
  split
  case isTrue hfeed =>
    rw [hfeed, form_feed_iff, or_and_right]
    rfl
  split
  case isTrue hquote =>
    have hc : c ∈ ['"', '\'', '\x60', '\\'] := by
      simp only [Bool.or_eq_true, decide_eq_true_eq] at hquote
      rcases hquote with (rfl | rfl) | rfl <;> decide
    rw [form_escape_iff hc]
    constructor
    · rintro ⟨m₁, m₂, spans₁, spans₂, hrun, ⟨rfl, rfl⟩, rfl, rfl⟩
      obtain ⟨⟨n, -, hn, rfl⟩, rfl⟩ := takes_run.1 hrun
      interval_cases n
      · exact ⟨.inl rfl, rfl⟩
      · exact ⟨.inr rfl, rfl⟩
    · rintro ⟨rfl | rfl, rfl⟩
      · exact ⟨[], [c], [], [], takes_run.2 ⟨⟨0, by simp⟩, rfl⟩, ⟨rfl, rfl⟩, rfl, rfl⟩
      · exact ⟨['\\'], [c], [], [], takes_run.2 ⟨⟨1, by simp⟩, rfl⟩, ⟨rfl, rfl⟩, rfl, rfl⟩
  split
  case isTrue hslash =>
    subst hslash
    rw [form_escape_iff (by decide), takes_run]
    refine and_congr_left' ⟨?_, ?_⟩
    · rintro ⟨n, hleast, hmost, rfl⟩
      interval_cases n
      · exact .inl rfl
      · exact .inr rfl
    · rintro (rfl | rfl)
      · exact ⟨1, by simp⟩
      · exact ⟨2, by simp⟩
  case isFalse hfeed hquote hslash =>
    split
    case isTrue hascii =>
      have hc : c ∉ ['\n', '"', '\'', '\x60', '\\'] := by
        simp only [Bool.or_eq_true, decide_eq_true_eq, not_or] at hquote
        simp [hfeed, hquote, hslash]
      rw [form_ascii_iff hc hascii, takes_literal]
    case isFalse hbeyond =>
      rw [form_beyond_iff hbeyond, or_and_right, Takes, takes_literal, takes_all_map takes_unitPattern]

/-- The text stands in the source with a form for each of its characters. -/
abbrev Stands (t m : Text) : Prop := Text.MadeOf Form t m

lemma stands_self (t : Text) : Stands t t := by
  induction t with
  | nil => rfl
  | cons c t ih => exact ⟨[c], t, .self c, ih, rfl⟩

lemma takes_text : (all (t.map tolerant)).Takes front m rest spans ↔ Stands t m ∧ spans = [] :=
  takes_all_map takes_tolerant t

end Prompt
end Retouch
