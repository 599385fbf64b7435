import Mathlib.Tactic.Set
import Retouch.Proofs.Attempt
import Retouch.Proofs.Literal.Marks
import Retouch.Proofs.Pattern.Choice
import Retouch.Proofs.Prompt.Template
import Retouch.Proofs.Text.Utf16
import Retouch.Prompt.Matcher

/-! A prompt is found where it is written. The matcher goes through a literal by its preferred way: each
character takes its own encoding, in either alphabet, and each gap of a template takes the whole
identifier, which the brace of the hole ends. -/
namespace Retouch

namespace Literal

variable {style : Style} {quote : Char}

/-- How a character is written in a literal with quotes, given the one after it. -/
inductive Written (style : Style) : (c : Char) → (next : Option Char) → Text → Prop
  | slash {next : Option Char} : Written style '\\' next ['\\', '\\']
  | feed {next : Option Char} : Written style '\n' next ['\n']
  | escapedFeed {next : Option Char} : Written style '\n' next ['\\', 'n']
  | escapedReturn {next : Option Char} : Written style '\r' next ['\\', 'r']
  | quote {c : Char} {next : Option Char} : c ∈ ['"', '\'', '\x60'] → Written style c next [c]
  | escapedQuote {c : Char} {next : Option Char} :
    c ∈ ['"', '\'', '\x60'] → Written style c next ['\\', c]
  | escapedHole : style = .template → Written style '$' (some '\x7b') ['\\', '$']
  | other {c : Char} {next : Option Char} : c ∉ ['\\', '\n', '\r', '"', '\'', '\x60'] →
    (c = '$' → style = .template → next ≠ some '\x7b') → Written style c next [c]

lemma written_encodeChar (hstyle : style.quote? = some quote) (c : Char) (next : Option Char) :
    Written style c next (encodeChar style c next) := by
  unfold encodeChar
  split
  case h_1 => cases hstyle
  case h_2 => exact .slash
  case h_3 => exact .feed
  case h_4 => exact .escapedFeed
  case h_5 => exact .escapedReturn
  case h_6 => exact .escapedQuote (by decide)
  case h_7 => exact .escapedQuote (by decide)
  case h_8 => exact .escapedQuote (by decide)
  case h_9 =>
    split
    · next hopen => exact hopen ▸ .escapedHole rfl
    · next hopen => exact .other (by decide) fun _ _ => hopen
  case h_10 _ _ _ hslash hfeed hreturn _ _ _ _ hdollar =>
    by_cases hquote : c ∈ ['"', '\'', '\x60']
    · exact .quote hquote
    · refine .other ?_ fun hc htemplate => (hdollar htemplate hc).elim
      simp only [List.mem_cons, List.not_mem_nil, or_false, not_or] at hquote ⊢
      exact ⟨hslash, hfeed, hreturn, hquote⟩

end Literal

namespace Prompt

open Pattern Cursor Literal

/-- ASCII letters, digits, underscores and dollar signs. -/
structure IsIdentifier (t : Text) : Prop where
  ne_nil : t ≠ []
  chars : ∀ c ∈ t, c.isAlphanum = true ∨ c = '_' ∨ c = '$'

/-! ## Characters -/

section Characters

variable {front rest : Text} {captures : List Span}

lemma prefers_hexDigit (c : Char) :
    (hexDigit c).Prefers (between front (c :: rest) captures)
      (between (front ++ [c]) rest captures) :=
  prefers_many (t := [c]) (by simp [CharClass.contains]) (Nat.le_refl 1) (by simp) (.inl rfl)

lemma follows_hexDigits (digits : Text) :
    Follows (digits.map hexDigit) (between front (digits ++ rest) captures)
      (between (front ++ digits) rest captures) := by
  induction digits generalizing front with
  | nil => simpa using Follows.nil _
  | cons c digits ih =>
    have hrest := @ih (front ++ [c])
    rw [List.append_assoc] at hrest
    exact .cons (prefers_hexDigit c) hrest

lemma prefers_unitPattern (u : Nat) :
    (unitPattern u).Prefers (between front (Text.unitEscape u ++ rest) captures)
      (between (front ++ Text.unitEscape u) rest captures) := by
  have hdigits := @follows_hexDigits (front ++ ['\\', 'u']) rest captures (Text.hexPadded 4 u)
  rw [List.append_assoc] at hdigits
  exact Follows.all (.cons (prefers_literal ['\\', 'u']) hdigits)

lemma follows_unitPatterns (us : List Nat) :
    Follows (us.map unitPattern) (between front (us.flatMap Text.unitEscape ++ rest) captures)
      (between (front ++ us.flatMap Text.unitEscape) rest captures) := by
  induction us generalizing front with
  | nil => simpa using Follows.nil _
  | cons u us ih =>
    have hrest := @ih (front ++ Text.unitEscape u)
    rw [List.append_assoc] at hrest
    rw [List.flatMap_cons, List.append_assoc]
    exact .cons (prefers_unitPattern u) hrest

lemma not_mem_oneOf {c d : Char} (h : c ≠ d) : (CharClass.oneOf [d]).contains c = false := by
  simp [CharClass.contains, h]

/-- A quote may have a backslash before it. -/
lemma prefers_quote {c : Char} (hc : c ≠ '\\') {t : Text} (ht : t = [] ∨ t = ['\\']) :
    (Pattern.seq (.many (.oneOf ['\\']) 0 (some 1)) (.literal [c])).Prefers
      (between front (t ++ c :: rest) captures) (between (front ++ t ++ [c]) rest captures) := by
  have hrun : (Pattern.many (.oneOf ['\\']) 0 (some 1)).Prefers
      (between front (t ++ c :: rest) captures) (between (front ++ t) (c :: rest) captures) := by
    refine prefers_many ?_ (Nat.zero_le _) ?_ (.inr ?_)
    · rcases ht with rfl | rfl <;> simp [CharClass.contains]
    · rcases ht with rfl | rfl <;> simp
    · simpa using not_mem_oneOf hc
  exact hrun.seq (prefers_literal [c])

/-- A character beyond ASCII takes itself or the escapes of its units. -/
lemma prefers_alphabets {c : Char} (hc : ¬c.toNat < 128) (escaped : Bool) :
    (Pattern.alt (.literal [c]) (.all ((Text.units16 c).map unitPattern))).Prefers
      (between front (inAlphabet escaped [c] ++ rest) captures)
      (between (front ++ inAlphabet escaped [c]) rest captures) := by
  cases escaped with
  | false => exact (prefers_literal [c]).altLeft
  | true =>
    have hunits : inAlphabet true [c] = (Text.units16 c).flatMap Text.unitEscape := by
      simp [inAlphabet, toAscii, hc]
    rw [hunits]
    refine .altRight ?_ (follows_unitPatterns (Text.units16 c)).all
    rw [advance_literal_singleton, Option.toList_eq_nil_iff]
    refine Option.eq_none_iff_forall_ne_some.2 fun d hd => ?_
    obtain ⟨rest', hrest, -⟩ := after?_between.1 hd
    obtain ⟨s, hs⟩ := Text.exists_unitEscapes c
    rw [hs] at hrest
    obtain rfl : '\\' = c := (List.cons.inj hrest).1
    exact hc (by decide)

variable {style : Style} {quote : Char}

/-- A character takes its own encoding, in either alphabet. -/
lemma prefers_tolerant (hstyle : style.quote? = some quote) (escaped : Bool) {c : Char}
    {next : Option Char} (hreturn : c ≠ '\r')
    (hhole : style = .template → c = '$' → next ≠ some '\x7b') :
    (tolerant c).Prefers
      (between front (inAlphabet escaped (encodeChar style c next) ++ rest) captures)
      (between (front ++ inAlphabet escaped (encodeChar style c next)) rest captures) := by
  have hquotes {d : Char} (hd : d ∈ ['"', '\'', '\x60']) : d ≠ '\\' ∧ d.toNat < 128 ∧
      tolerant d = .seq (.many (.oneOf ['\\']) 0 (some 1)) (.literal [d]) := by
    simp only [List.mem_cons, List.not_mem_nil, or_false] at hd
    rcases hd with rfl | rfl | rfl <;> exact ⟨by decide, by decide, rfl⟩
  have hwritten := written_encodeChar hstyle c next
  generalize encodeChar style c next = m at hwritten ⊢
  cases hwritten with
  | slash =>
    rw [inAlphabet_eq_self escaped (by simp)]
    exact prefers_many (by simp [CharClass.contains]) (by simp) (by simp) (.inl rfl)
  | feed =>
    rw [inAlphabet_eq_self escaped (by simp)]
    exact (prefers_literal ['\n']).altLeft
  | escapedFeed =>
    rw [inAlphabet_eq_self escaped (by simp)]
    refine .altRight ?_ (prefers_literal ['\\', 'n'])
    simp [advance, after?, next?_between]
  | escapedReturn => exact absurd rfl hreturn
  | quote hc =>
    obtain ⟨hslash, hascii, htolerant⟩ := hquotes hc
    rw [inAlphabet_singleton escaped hascii, htolerant]
    simpa using @prefers_quote front rest captures c hslash [] (.inl rfl)
  | escapedQuote hc =>
    obtain ⟨hslash, hascii, htolerant⟩ := hquotes hc
    rw [inAlphabet_eq_self escaped (by simpa using hascii), htolerant]
    simpa using @prefers_quote front rest captures c hslash ['\\'] (.inr rfl)
  | escapedHole htemplate => exact absurd rfl (hhole htemplate rfl)
  | other hc =>
    simp only [List.mem_cons, List.not_mem_nil, or_false, not_or] at hc
    obtain ⟨hslash, hfeed, -, hdouble, hsingle, htick⟩ := hc
    simp only [tolerant, hslash, hfeed, hdouble, hsingle, htick, Bool.or_self, decide_false,
      Bool.false_eq_true, ↓reduceIte]
    split
    · next hascii =>
      rw [inAlphabet_singleton escaped hascii]
      exact prefers_literal [c]
    · next hascii => exact prefers_alphabets hascii escaped

lemma follows_text (hstyle : style.quote? = some quote) (escaped : Bool) {t : Text}
    (hreturn : '\r' ∉ t) (hhole : style = .template → ¬['$', '\x7b'] <:+: t) :
    Follows (t.map tolerant)
      (between front (inAlphabet escaped (encode style t) ++ rest) captures)
      (between (front ++ inAlphabet escaped (encode style t)) rest captures) := by
  induction t generalizing front with
  | nil =>
    have hnil : inAlphabet escaped (encode style []) = [] := by cases escaped <;> rfl
    rw [hnil, List.append_nil]
    exact .nil _
  | cons c t ih =>
    rw [List.mem_cons, not_or] at hreturn
    have hopen : style = .template → c = '$' → t.head? ≠ some '\x7b' := by
      rintro htemplate rfl hhead
      obtain ⟨u, rfl⟩ := List.head?_eq_some_iff.1 hhead
      exact hhole htemplate ⟨[], u, rfl⟩
    have hlater : style = .template → ¬['$', '\x7b'] <:+: t := fun htemplate hlaterHole =>
      hhole htemplate (hlaterHole.trans (List.suffix_cons c t).isInfix)
    have hrest := @ih (front ++ inAlphabet escaped (encodeChar style c t.head?)) hreturn.2 hlater
    rw [List.append_assoc] at hrest
    rw [encode, inAlphabet_append, List.append_assoc]
    exact .cons (prefers_tolerant hstyle escaped (Ne.symm hreturn.1) hopen) hrest

/-! ## Identifiers -/

lemma toNat_lt_of_isAlphanum {c : Char} (h : c.isAlphanum = true) : c.toNat < 128 := by
  delta Char.isAlphanum Char.isAlpha Char.isUpper Char.isLower Char.isDigit at h
  simp only [ge_iff_le, Bool.or_eq_true, Bool.and_eq_true, decide_eq_true_eq,
    UInt32.le_iff_toNat_le] at h
  have hZ : 'Z'.val.toNat = 90 := rfl
  have hz : 'z'.val.toNat = 122 := rfl
  have h9 : '9'.val.toNat = 57 := rfl
  rw [Char.toNat]
  omega

lemma IsIdentifier.ascii {t : Text} (h : IsIdentifier t) : ∀ c ∈ t, c.toNat < 128 := by
  intro c hc
  rcases h.chars c hc with hletter | rfl | rfl
  · exact toNat_lt_of_isAlphanum hletter
  · decide
  · decide

lemma IsIdentifier.contains {t : Text} (h : IsIdentifier t) :
    ∀ c ∈ t, (CharClass.name []).contains c = true := by
  intro c hc
  have hascii := h.ascii c hc
  rcases h.chars c hc with hletter | rfl | rfl
  · simp [CharClass.contains, isWord, hascii, hletter]
  · decide
  · decide

/-- A gap takes a whole identifier. -/
lemma prefers_nameGroup {t : Text} (h : IsIdentifier t) :
    nameGroup.Prefers (between front (t ++ '\x7d' :: rest) captures)
      (between (front ++ t) ('\x7d' :: rest)
        (captures ++ [⟨front.size, front.size + t.size⟩])) := by
  have hlength : 1 ≤ t.length := List.length_pos_iff.2 h.ne_nil
  have hbrace : (CharClass.name []).contains '\x7d' = false := by decide
  have hrun : (oneOrMore (.name [])).Prefers (between front (t ++ '\x7d' :: rest) captures)
      (between (front ++ t) ('\x7d' :: rest) captures) :=
    prefers_many h.contains hlength nofun (.inr (by simpa using hbrace))
  exact hrun.capture

end Characters

/-! ## Pieces -/

section Pieces

/-- What the matcher puts one after the other. -/
def parts (pieces : List Text) : List Pattern :=
  ((pieces.map (·.map tolerant)).intersperse [.nameGroup]).flatten

variable {f : Nat → Text} {t u : Text} {us : List Text} {slots : List Nat} {captures : List Span}

lemma parts_cons_of_ne_nil {piece : Text} {pieces : List Text} (h : pieces ≠ []) :
    parts (piece :: pieces) = piece.map tolerant ++ nameGroup :: parts pieces := by
  cases pieces with
  | nil => exact absurd rfl h
  | cons next pieces => rfl

lemma parts_piecesOf_cons (c : Char) (t : Text) (us : List Text) :
    parts (piecesOf (c :: t) us) = tolerant c :: parts (piecesOf t us) := by
  cases us with
  | nil => rfl
  | cons u us =>
    rw [piecesOf, piecesOf, parts_cons_of_ne_nil (piecesOf_ne_nil _ us),
      parts_cons_of_ne_nil (piecesOf_ne_nil _ us)]
    rfl

/-- The patterns of a text and of the hole after it. -/
lemma parts_piecesOf (t u : Text) (us : List Text) :
    parts (piecesOf t (u :: us)) =
      t.map tolerant ++
        .literal ['$'] :: .literal ['\x7b'] :: nameGroup :: .literal ['\x7d'] ::
          parts (piecesOf u us) := by
  rw [piecesOf, parts_cons_of_ne_nil (piecesOf_ne_nil _ us), parts_piecesOf_cons, List.map_append,
    List.append_assoc]
  rfl

/-- A template with identifiers in its holes, as it stands in a literal. -/
def filled (f : Nat → Text) (escaped : Bool) (t : Text) (us : List Text) (slots : List Nat) : Text :=
  inAlphabet escaped
    (interleave f (piecesOf (encode .template t) (us.map (encode .template))) slots)

lemma filled_cons (escaped : Bool) {slot : Nat} (hslot : IsIdentifier (f slot)) :
    filled f escaped t (u :: us) (slot :: slots) =
      inAlphabet escaped (encode .template t) ++
        (['$', '\x7b'] ++ (f slot ++ (['\x7d'] ++ filled f escaped u us slots))) := by
  have hopen : inAlphabet escaped ['$', '\x7b'] = ['$', '\x7b'] :=
    inAlphabet_eq_self escaped (by simp)
  have hclose : inAlphabet escaped ['\x7d'] = ['\x7d'] := inAlphabet_eq_self escaped (by simp)
  have hname : inAlphabet escaped (f slot) = f slot := inAlphabet_eq_self escaped hslot.ascii
  have hsplit (v w : Text) : v ++ '$' :: '\x7b' :: (f slot ++ '\x7d' :: w) =
      v ++ (['$', '\x7b'] ++ (f slot ++ (['\x7d'] ++ w))) := rfl
  rw [filled, filled, List.map_cons, interleave_piecesOf, hsplit]
  simp only [inAlphabet_append, hopen, hclose, hname]

/-- The matcher goes through a filled template, and captures what its holes are filled with. -/
theorem follows_filled (escaped : Bool) (hplain : ∀ u ∈ t :: us, IsPlain u)
    (hslots : us.length ≤ slots.length) (hf : ∀ slot ∈ slots.take us.length, IsIdentifier (f slot))
    (front rest : Text) :
    ∃ spans,
      Follows (parts (piecesOf t us))
        (between front (filled f escaped t us slots ++ rest) captures)
        (between (front ++ filled f escaped t us slots) rest (captures ++ spans)) ∧
      spans.mapM (fun s => Attempt.demand
          (Text.slice? (front ++ filled f escaped t us slots ++ rest) s.start s.stop)) =
        .ok ((slots.take us.length).map f) := by
  induction us generalizing t slots front captures with
  | nil =>
    have hparts : parts (piecesOf t []) = t.map tolerant := by simp [parts, piecesOf]
    refine ⟨[], ?_, rfl⟩
    rw [List.append_nil, hparts]
    have htext := hplain t List.mem_cons_self
    exact follows_text rfl escaped htext.noReturn fun _ => htext.noHole
  | cons u us ih =>
    obtain ⟨htext, hplains⟩ := List.forall_mem_cons.1 hplain
    cases slots with
    | nil => exact absurd hslots (Nat.not_succ_le_zero _)
    | cons slot slots =>
      rw [List.length_cons, List.take_succ_cons, List.forall_mem_cons] at hf
      set text := inAlphabet escaped (encode .template t)
      set after := filled f escaped u us slots
      have hopened : front ++ text ++ ['$'] ++ ['\x7b'] = front ++ text ++ ['$', '\x7b'] := by simp
      set opened := front ++ text ++ ['$', '\x7b']
      obtain ⟨spans, hspans, hfound⟩ := @ih u slots
        (captures ++ [⟨opened.size, opened.size + (f slot).size⟩]) hplains
        (Nat.le_of_succ_le_succ hslots) hf.2 (opened ++ f slot ++ ['\x7d'])
      have hdollar := @prefers_literal (front ++ text)
        ('\x7b' :: (f slot ++ '\x7d' :: (after ++ rest))) captures ['$']
      have hbrace := @prefers_literal (front ++ text ++ ['$'])
        (f slot ++ '\x7d' :: (after ++ rest)) captures ['\x7b']
      rw [hopened] at hbrace
      have hname := @prefers_nameGroup opened (after ++ rest) captures (f slot) hf.1
      have hclose := @prefers_literal (opened ++ f slot) (after ++ rest)
        (captures ++ [⟨opened.size, opened.size + (f slot).size⟩]) ['\x7d']
      have hhole := (follows_text rfl escaped htext.noReturn fun _ => htext.noHole).append
        (.cons hdollar (.cons hbrace (.cons hname (.cons hclose hspans))))
      refine ⟨⟨opened.size, opened.size + (f slot).size⟩ :: spans, ?_, ?_⟩
      · rw [parts_piecesOf, filled_cons escaped hf.1]
        simpa [opened] using hhole
      · have hsource : front ++ filled f escaped t (u :: us) (slot :: slots) ++ rest =
            opened ++ f slot ++ ['\x7d'] ++ after ++ rest := by
          rw [filled_cons escaped hf.1]
          simp [opened, text, after]
        have hslice : Text.slice? (opened ++ f slot ++ ['\x7d'] ++ after ++ rest) opened.size
            (opened.size + (f slot).size) = some (f slot) := by
          rw [List.append_assoc, List.append_assoc]
          exact Text.slice?_append opened (f slot) _
        rw [hsource]
        refine Attempt.mapM_cons_eq_ok.2 ⟨_, _, rfl, ?_, hfound⟩
        rw [hslice]
        rfl

end Pieces

end Prompt
end Retouch
