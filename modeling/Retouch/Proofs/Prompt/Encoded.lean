import Retouch.Proofs.Prompt.Tolerance

/-! A text in a literal and the matcher of the text. The matcher finds the text as it is written in the
literal, in either alphabet, unless a character is written in a way that is none of its forms: a carriage
return, or a sign that would open a hole. -/
namespace Retouch.Prompt

open Pattern Cursor Literal

variable {style : Style} {quote : Char} {c : Char} {next : Option Char} {t m rest written : Text}

/-! ## Forms and backslashes -/

/-- Backslashes before other characters are as many as they are. -/
lemma eq_of_backslashes {x y : Char} {k l : Nat} {r s : Text} (hx : x ≠ '\\') (hy : y ≠ '\\')
    (h : List.replicate k '\\' ++ x :: r = List.replicate l '\\' ++ y :: s) :
    k = l ∧ x = y ∧ r = s := by
  induction k generalizing l with
  | zero =>
    cases l with
    | zero => simpa using h
    | succ l => exact absurd (List.cons.inj h).1 hx
  | succ k ih =>
    cases l with
    | zero => exact absurd (List.cons.inj h).1.symm hy
    | succ l =>
      obtain ⟨hk, hrest⟩ := ih (List.cons.inj h).2
      exact ⟨by rw [hk], hrest⟩

lemma replicate_append_cons {α : Type} (k : Nat) (a : α) (as : List α) :
    List.replicate k a ++ a :: as = List.replicate (k + 1) a ++ as := by
  simp [List.replicate_succ']

lemma length_of_madeOf {α : Type} {part : α → Text → Prop} {n : Nat} {as : List α} {m : Text}
    (hpart : ∀ a ∈ as, ∀ m, part a m → m.length = n) (h : Text.MadeOf part as m) :
    m.length = as.length * n := by
  induction as generalizing m with
  | nil => simp [show m = [] from h]
  | cons a as ih =>
    obtain ⟨m₁, m₂, ha, has, rfl⟩ := h
    obtain ⟨hfirst, hlater⟩ := List.forall_mem_cons.1 hpart
    rw [List.length_append, hfirst m₁ ha, ih hlater has, List.length_cons, Nat.succ_mul, Nat.add_comm]

lemma length_unitForm {u : Nat} (hu : u < 0x10000) (h : UnitForm u m) : m.length = 6 := by
  obtain ⟨digits, hdigits, rfl⟩ := h
  have hdigit : ∀ c ∈ Text.hexPadded 4 u, ∀ m, DigitForm c m → m.length = 1 := by
    rintro c - m (rfl | rfl) <;> rfl
  rw [List.length_cons, List.length_cons, length_of_madeOf hdigit hdigits, Text.hexPadded_four hu]
  rfl

/-- Escapes in any case start as the escapes of a character, and are as long. -/
lemma unitForms_units16 (h : Text.MadeOf UnitForm (Text.units16 c) m) :
    m.length = ((Text.units16 c).flatMap Text.unitEscape).length ∧ ∃ s, m = '\\' :: 'u' :: s := by
  constructor
  · have hforms : ∀ u ∈ Text.units16 c, ∀ m, UnitForm u m → m.length = 6 := fun u hu m =>
      length_unitForm (Text.lt_of_mem_units16 hu)
    have hescapes : ∀ u ∈ Text.units16 c, (Text.unitEscape u).length = 6 := by
      intro u hu
      rw [Text.unitEscape, Text.hexPadded_four (Text.lt_of_mem_units16 hu)]
      rfl
    rw [length_of_madeOf hforms h, List.length_flatMap, List.map_congr_left hescapes,
      List.map_const', List.sum_replicate_nat]
  · obtain ⟨u, us, hunits⟩ := Text.exists_units16_cons c
    rw [hunits] at h
    obtain ⟨m₁, m₂, ⟨digits, -, rfl⟩, -, rfl⟩ := h
    exact ⟨digits ++ m₂, rfl⟩

/-! ## The text as it is written -/

/-- In a form of a character beyond ASCII, nothing but the character as it is written is taken. -/
lemma eq_of_form_beyond {f : Text} {k : Nat} {escaped : Bool} (hbeyond : ¬c.toNat < 128)
    (hform : Form c f) (h : List.replicate k '\\' ++ (inAlphabet escaped [c] ++ rest) = f ++ m) :
    m = rest := by
  have hslash : c ≠ '\\' := by
    rintro rfl
    exact hbeyond (by decide)
  have hu : c ≠ 'u' := by
    rintro rfl
    exact hbeyond (by decide)
  cases escaped with
  | false =>
    rcases (form_beyond_iff hbeyond).1 hform with rfl | hunits
    · exact (eq_of_backslashes (l := 0) hslash hslash h).2.2.symm
    · obtain ⟨-, s, rfl⟩ := unitForms_units16 hunits
      exact absurd (eq_of_backslashes (l := 1) hslash (by decide) h).2.1 hu
  | true =>
    have hown : inAlphabet true [c] = (Text.units16 c).flatMap Text.unitEscape := by
      simp [inAlphabet, toAscii, hbeyond]
    rw [hown] at h
    obtain ⟨s, hs⟩ := Text.exists_unitEscapes c
    rcases (form_beyond_iff hbeyond).1 hform with rfl | hunits
    · rw [hs, List.cons_append, replicate_append_cons] at h
      exact absurd (eq_of_backslashes (l := 0) (by decide) hslash h).1 (Nat.succ_ne_zero k)
    · obtain ⟨hlength, s', rfl⟩ := unitForms_units16 hunits
      rw [hs, List.cons_append, replicate_append_cons] at h
      obtain ⟨-, -, hrest⟩ := eq_of_backslashes (l := 1) (by decide) (by decide) h
      rw [hs] at hlength
      exact (List.append_inj_right hrest (by simpa using hlength.symm)).symm

lemma of_mem_quotes (hc : c ∈ ['"', '\'', '\x60']) : c ∈ ['"', '\'', '\x60', '\\'] ∧ c ≠ '\\' ∧
    c ≠ '\r' ∧ c ≠ '$' ∧ c.toNat < 128 := by
  simp only [List.mem_cons, List.not_mem_nil, or_false] at hc
  rcases hc with rfl | rfl | rfl <;> decide

/-- A form takes a character as it is written, up to backslashes that are left for what follows. So no
form takes an escaped carriage return, and none takes an escaped dollar sign. -/
lemma exists_backslashes {f : Text} {k : Nat} {escaped : Bool} (hwritten : Written style c next written)
    (hform : Form c f) (h : List.replicate k '\\' ++ (inAlphabet escaped written ++ rest) = f ++ m) :
    c ≠ '\r' ∧ (style = .template → c = '$' → next ≠ some '\x7b') ∧
      ∃ l, m = List.replicate l '\\' ++ rest := by
  cases hwritten with
  | slash =>
    refine ⟨by decide, fun _ h => absurd h (by decide), ?_⟩
    rw [inAlphabet_eq_self escaped (by simp), List.cons_append, replicate_append_cons,
      List.singleton_append, replicate_append_cons] at h
    rcases (form_escape_iff (by decide)).1 hform with rfl | rfl
    · exact ⟨k + 1, (List.cons.inj h).2.symm⟩
    · exact ⟨k, (List.cons.inj (List.cons.inj h).2).2.symm⟩
  | feed =>
    refine ⟨by decide, fun _ h => absurd h (by decide), 0, ?_⟩
    rw [inAlphabet_eq_self escaped (by simp)] at h
    rcases form_feed_iff.1 hform with rfl | rfl
    · exact (eq_of_backslashes (l := 0) (by decide) (by decide) h).2.2.symm
    · exact absurd (eq_of_backslashes (l := 1) (by decide) (by decide) h).2.1 (by decide)
  | escapedFeed =>
    refine ⟨by decide, fun _ h => absurd h (by decide), 0, ?_⟩
    rw [inAlphabet_eq_self escaped (by simp), List.cons_append, replicate_append_cons] at h
    rcases form_feed_iff.1 hform with rfl | rfl
    · exact absurd (eq_of_backslashes (l := 0) (by decide) (by decide) h).2.1 (by decide)
    · exact (eq_of_backslashes (l := 1) (by decide) (by decide) h).2.2.symm
  | escapedReturn =>
    rw [inAlphabet_eq_self escaped (by simp), List.cons_append, replicate_append_cons] at h
    obtain rfl := (form_ascii_iff (by decide) (by decide)).1 hform
    exact absurd (eq_of_backslashes (l := 0) (by decide) (by decide) h).2.1 (by decide)
  | quote hc =>
    obtain ⟨hescape, hslash, hreturn, hdollar, hascii⟩ := of_mem_quotes hc
    refine ⟨hreturn, fun _ h => absurd h hdollar, 0, ?_⟩
    rw [inAlphabet_singleton escaped hascii] at h
    rcases (form_escape_iff hescape).1 hform with rfl | rfl
    · exact (eq_of_backslashes (l := 0) hslash hslash h).2.2.symm
    · exact (eq_of_backslashes (l := 1) hslash hslash h).2.2.symm
  | escapedQuote hc =>
    obtain ⟨hescape, hslash, hreturn, hdollar, hascii⟩ := of_mem_quotes hc
    refine ⟨hreturn, fun _ h => absurd h hdollar, 0, ?_⟩
    rw [inAlphabet_eq_self escaped (by simpa using hascii), List.cons_append,
      replicate_append_cons] at h
    rcases (form_escape_iff hescape).1 hform with rfl | rfl
    · exact (eq_of_backslashes (l := 0) hslash hslash h).2.2.symm
    · exact (eq_of_backslashes (l := 1) hslash hslash h).2.2.symm
  | escapedHole =>
    rw [inAlphabet_eq_self escaped (by simp), List.cons_append, replicate_append_cons] at h
    obtain rfl := (form_ascii_iff (by decide) (by decide)).1 hform
    exact absurd (eq_of_backslashes (l := 0) (by decide) (by decide) h).1 (Nat.succ_ne_zero k)
  | other hc hopen =>
    simp only [List.mem_cons, List.not_mem_nil, or_false, not_or] at hc
    obtain ⟨hslash, hfeed, hreturn, hdouble, hsingle, htick⟩ := hc
    refine ⟨hreturn, fun htemplate hdollar => hopen hdollar htemplate, 0, ?_⟩
    by_cases hascii : c.toNat < 128
    · obtain rfl := (form_ascii_iff (by simp [*]) hascii).1 hform
      rw [inAlphabet_singleton escaped hascii] at h
      exact (eq_of_backslashes (l := 0) hslash hslash h).2.2.symm
    · exact eq_of_form_beyond hascii hform h

/-- Text that the matcher takes as it is written has no carriage return, and opens no hole. -/
lemma of_stands_encode (hstyle : style.quote? = some quote) (escaped : Bool) {k : Nat}
    (h : Stands t (List.replicate k '\\' ++ inAlphabet escaped (encode style t))) :
    '\r' ∉ t ∧ (style = .template → ¬['$', '\x7b'] <:+: t) := by
  induction t generalizing k with
  | nil => simp
  | cons c t ih =>
    obtain ⟨f, m, hform, hstands, heq⟩ := h
    rw [encode, inAlphabet_append] at heq
    obtain ⟨hreturn, hopen, l, rfl⟩ :=
      exists_backslashes (written_encodeChar hstyle c t.head?) hform heq
    obtain ⟨hreturns, hholes⟩ := ih hstands
    refine ⟨List.not_mem_cons_of_ne_of_not_mem hreturn.symm hreturns, fun htemplate hhole => ?_⟩
    rcases List.infix_cons_iff.1 hhole with hfirst | hrest
    · obtain ⟨u, hu⟩ := hfirst
      obtain ⟨rfl, rfl⟩ := List.cons.inj hu
      exact hopen htemplate rfl rfl
    · exact hholes htemplate hrest

/-- What is written is found by the matcher as a whole exactly if it has no carriage return, and in a
template opens no hole. -/
theorem find?_encode_iff (hstyle : style.quote? = some quote) (escaped : Bool) (t : Text) :
    (matcher [t]).find? (inAlphabet escaped (encode style t)) =
        some ⟨⟨0, (inAlphabet escaped (encode style t)).size⟩, []⟩ ↔
      '\r' ∉ t ∧ (style = .template → ¬['$', '\x7b'] <:+: t) := by
  have hmatcher : matcher [t] = all (t.map tolerant) := by simp [matcher]
  rw [hmatcher]
  constructor
  · intro h
    obtain ⟨front, m, rest, ht, htakes, hspan⟩ := takesIn_of_mem_matchesIn (List.mem_of_mem_head? h)
    have hfront : front = [] := Text.size_eq_zero.1 (congrArg Span.start hspan).symm
    have hstop := congrArg Span.stop hspan
    subst hfront
    have hrest : rest = [] := by
      rw [ht] at hstop
      simpa using hstop
    rw [hrest, List.append_nil, List.nil_append] at ht
    rw [← ht] at htakes
    exact of_stands_encode (k := 0) hstyle escaped (takes_text.1 htakes).1
  · rintro ⟨hreturn, hhole⟩
    have hfollows := @follows_text [] [] [] style quote hstyle escaped t hreturn hhole
    have hhere := matchHere?_of_follows hfollows
    rw [find?]
    simpa using head?_matchesIn hhere (fun _ _ => Nat.zero_le _)

/-- A carriage return between double quotes, and a hole in a template. -/
theorem find?_encode_ne :
    (matcher ["a\r".toList]).find? (inAlphabet false (encode .double "a\r".toList)) ≠
        some ⟨⟨0, (inAlphabet false (encode .double "a\r".toList)).size⟩, []⟩ ∧
      (matcher ["$\x7bx\x7d".toList]).find? (inAlphabet false (encode .template "$\x7bx\x7d".toList)) ≠
        some ⟨⟨0, (inAlphabet false (encode .template "$\x7bx\x7d".toList)).size⟩, []⟩ := by
  constructor
  · intro h
    obtain ⟨hreturn, -⟩ := (@find?_encode_iff .double '"' rfl false _).1 h
    exact absurd hreturn (by decide)
  · intro h
    obtain ⟨-, hhole⟩ := (@find?_encode_iff .template '\x60' rfl false _).1 h
    exact absurd (hhole rfl) (by decide)

end Retouch.Prompt
