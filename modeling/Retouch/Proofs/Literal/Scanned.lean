import Retouch.Proofs.Literal.Around
import Retouch.Proofs.Literal.Decoding
import Retouch.Proofs.Scan.Literal

/-! A literal that text was written into, as the scans read it. A scan forward passes over it as a whole,
and a scan backward finds its opening quote: both take a quote in it for a character, since a backslash
stands before it that nothing escapes. -/
namespace Retouch.Literal

open Scan

variable {style : Style} {quote : Char} {b : UInt8} {bs before : List UInt8}

lemma isQuote_eq_isSome (b : UInt8) : isQuote b = (Style.ofQuote? b).isSome := by
  unfold isQuote Style.ofQuote?
  split_ifs with hdouble hsingle htemplate <;> simp_all

/-- The quote of a style is one byte, which the scans know. -/
lemma exists_quoteByte (hstyle : style.quote? = some quote) : ∃ b, String.utf8EncodeChar quote = [b] := by
  cases style <;> cases hstyle <;> exact ⟨_, rfl⟩

lemma isQuote_of_quote? (hstyle : style.quote? = some quote) (hbyte : String.utf8EncodeChar quote = [b]) :
    isQuote b = true := by
  rw [isQuote_eq_isSome, ofQuote?_eq_some_iff.2 ⟨quote, hstyle, hbyte⟩]
  rfl

/-! ## Forward -/

/-- A character that means nothing in a literal stays in it, in either alphabet. -/
lemma inside_inAlphabet_singleton {c : Char} (escaped : Bool) (hstyle : style.quote? = some quote)
    (hbyte : String.utf8EncodeChar quote = [b]) (hslash : c ≠ '\\') (hc : c ≠ quote) :
    Inside b (Text.bytes (inAlphabet escaped [c])) := by
  have hself : Inside b (Text.bytes [c]) := by
    have hsingle : Text.bytes [c] = String.utf8EncodeChar c := by simp [Text.bytes]
    rw [hsingle]
    exact inside_utf8EncodeChar hslash hc (Text.toNat_eq_of_utf8EncodeChar hbyte)
      (isMark_imp_ascii (isMark_of_quote? hstyle))
  by_cases hascii : c.toNat < 128
  · rwa [inAlphabet_singleton escaped hascii]
  · cases escaped with
    | false => exact hself
    | true =>
      have hunits : inAlphabet true [c] = (Text.units16 c).flatMap Text.unitEscape := by
        simp [inAlphabet, toAscii, hascii]
      rw [hunits, Text.bytes, List.flatMap_assoc]
      exact inside_flatMap fun u hu =>
        inside_unitEscape (isQuote_of_quote? hstyle hbyte) (Text.lt_of_mem_units16 hu)

/-- What is written for a text does not leave the literal. -/
lemma inside_encode (hstyle : style.quote? = some quote) (hbyte : String.utf8EncodeChar quote = [b])
    (escaped : Bool) (t : Text) : Inside b (Text.bytes (inAlphabet escaped (encode style t))) := by
  induction t with
  | nil => cases escaped <;> exact .nil
  | cons c t ih =>
    rw [encode, inAlphabet_append, Text.bytes_append]
    refine Inside.append ?_ ih
    rcases encodeChar_cases hstyle c t.head? with ⟨hchar, hslash, hc, -⟩ | ⟨d, hd, hchar⟩
    · rw [hchar]
      exact inside_inAlphabet_singleton escaped hstyle hbyte hslash hc
    · have hletters : ['\\', 'n', 'r', '"', '\'', '\x60', '$'].all (fun d =>
          d.toNat < 128 && (String.utf8EncodeChar d).length == 1) = true := by decide
      obtain ⟨hascii, hshort⟩ : d.toNat < 128 ∧ (String.utf8EncodeChar d).length = 1 := by
        simpa using List.all_eq_true.1 hletters d hd
      have hpairAscii : ∀ c ∈ ['\\', d], c.toNat < 128 := by
        rw [List.forall_mem_cons, List.forall_mem_singleton]
        exact ⟨by decide, hascii⟩
      obtain ⟨e, he⟩ := List.length_eq_one_iff.1 hshort
      have hpair : Text.bytes ['\\', d] = [0x5C, e] := by
        simp only [Text.bytes, List.flatMap_cons, List.flatMap_nil, he]
        rfl
      rw [hchar, inAlphabet_eq_self escaped hpairAscii, hpair]
      exact .escaped .nil

/-! ## Backward -/

/-- A quote of the literal's kind is escaped wherever it stands in it. -/
lemma isEscaped_of_inside {u v : List UInt8} (hslash : b ≠ 0x5C) (h : Inside b bs)
    (hbefore : Style.isEscaped before = false) (hbs : bs = u ++ b :: v) :
    Style.isEscaped (u.reverse ++ before) = true := by
  induction h generalizing u before with
  | nil => simp at hbs
  | @byte c cs hc hne _ ih =>
    cases u with
    | nil => exact absurd (List.cons.inj hbs).1 hne
    | cons d u =>
      obtain ⟨rfl, hcs⟩ : c = d ∧ cs = u ++ b :: v := List.cons.inj hbs
      have hstep : Style.isEscaped (c :: before) = false := by simp [isEscaped_cons, hc]
      simpa using ih hstep hcs
  | @escaped c cs _ ih =>
    match u with
    | [] => exact absurd (List.cons.inj hbs).1.symm hslash
    | [d] =>
      obtain ⟨rfl, -⟩ := List.cons.inj hbs
      simp [isEscaped_cons, hbefore]
    | d :: e :: u =>
      obtain ⟨rfl, rfl, hcs⟩ : 0x5C = d ∧ c = e ∧ cs = u ++ b :: v := by simpa using hbs
      have hstep : Style.isEscaped (c :: 0x5C :: before) = false := by simp [isEscaped_cons, hbefore]
      simpa using ih hstep hcs

lemma mem_encodeChar {c x : Char} {next : Option Char} (h : x ∈ encodeChar style c next) :
    x = c ∨ x ∈ ['\\', 'n', 'r'] := by
  unfold encodeChar at h
  split at h <;> grind

/-- The marks in an encoded text are those of the text. -/
lemma mem_of_mem_encode {x : Char} {t : Text} (hx : isMark x) (h : x ∈ encode style t) : x ∈ t := by
  induction t with
  | nil => cases h
  | cons c t ih =>
    rw [encode, List.mem_append] at h
    rcases h with h | h
    · rcases mem_encodeChar h with rfl | hletter
      · exact List.mem_cons_self
      · have hnone : ['\\', 'n', 'r'].all (!isMark ·) = true := by decide
        exact absurd hx (by simpa using List.all_eq_true.1 hnone x hletter)
    · exact List.mem_cons_of_mem c (ih h)

/-- A text without quotes of other kinds has no quote in a literal that is not escaped. -/
lemma shielded_encode (hstyle : style.quote? = some quote) (hbyte : String.utf8EncodeChar quote = [b])
    (hbefore : Style.isEscaped before = false) (escaped : Bool) {t : Text}
    (ht : ∀ c ∈ t, ∀ other : Style, other.quote? = some c → other = style) :
    Shielded before (Text.bytes (inAlphabet escaped (encode style t))) := by
  have hslash := ne_backslash_of_isQuote (isQuote_of_quote? hstyle hbyte)
  intro u d v hbs hd
  obtain ⟨other, hother⟩ := Option.isSome_iff_exists.1 hd
  obtain ⟨c, hc, hd⟩ := ofQuote?_eq_some_iff.1 hother
  obtain ⟨x, hx, hdx⟩ : ∃ x ∈ inAlphabet escaped (encode style t), d ∈ String.utf8EncodeChar x := by
    have hmem : d ∈ Text.bytes (inAlphabet escaped (encode style t)) := by simp [hbs]
    simpa [Text.bytes] using hmem
  -- the byte is all of a quote, which the text has
  have hmark := isMark_of_quote? hc
  obtain rfl : x = c :=
    Text.eq_of_mem_utf8EncodeChar hdx (isMark_imp_ascii hmark) (Text.toNat_eq_of_utf8EncodeChar hd)
  have hmem : x ∈ t :=
    mem_of_mem_encode hmark ((mem_iff_of_marks_eq (marks_inAlphabet escaped _) hmark).1 hx)
  obtain rfl := ht x hmem other hc
  obtain rfl : x = quote := Option.some.inj (hc.symm.trans hstyle)
  obtain rfl : b = d := (List.cons.inj (hbyte.symm.trans hd)).1
  exact isEscaped_of_inside hslash (inside_encode hstyle hbyte escaped t) hbefore hbs

/-- The scans agree with the writer of literals. Text written between quotes is one literal to a scan
forward, which goes on right after it, with as many brackets open as before. From each place in it a scan
backward comes to the quote that opens it, unless that is too far away; for this, the text has to be free
of quotes of other kinds, and nothing before may escape the opening one. -/
theorem scans_encode {style : Style} {quote : Char} (hstyle : style.quote? = some quote) (escaped : Bool)
    (t : Text) :
    let written := inAlphabet escaped (encode style t)
    let literal := Text.bytes (quote :: written ++ [quote])
    (∀ before after, literalEnd? (before ++ (literal ++ after)) before.length =
      some (before.length + literal.length)) ∧
    (∀ opener closer depth pos after, closerFrom opener closer .code depth pos (literal ++ after) =
      closerFrom opener closer .code depth (pos + literal.length) after) ∧
    ((∀ c ∈ t, ∀ other : Style, other.quote? = some c → other = style) →
      ∀ (front rest : Text) (n : Nat), ¬Escaping front →
        front.size < n → n ≤ front.size + 1 + written.size →
        Style.around (front ++ (quote :: written ++ rest)) n =
          if n ≤ front.size + Style.reach then style else .plain) := by
  intro written literal
  obtain ⟨b, hbyte⟩ := exists_quoteByte hstyle
  have hquote := isQuote_of_quote? hstyle hbyte
  have hinside : Inside b written.bytes := inside_encode hstyle hbyte escaped t
  have hliteral : literal = b :: (written.bytes ++ [b]) := by
    simp [literal, Text.bytes, hbyte]
  have hlength : literal.length = written.bytes.length + 2 := by simp [hliteral]
  refine ⟨fun before after => ?_, fun opener closer depth pos after => ?_,
    fun ht front rest n hfront hstart hstop => ?_⟩
  · rw [hlength, hliteral]
    exact literalEnd?_literal hquote hinside before after
  · rw [hlength, hliteral]
    exact closerFrom_literal hquote hinside depth pos after
  · have hopen : Style.isEscaped (b :: front.bytes.reverse) = false := by
      simp [isEscaped_cons, ne_backslash_of_isQuote hquote]
    exact around_quote hstyle hbyte hfront (shielded_encode hstyle hbyte hopen escaped ht) hstart hstop

/-- An open bracket, a backslash, the quote itself and a character beyond ASCII. The place is within the
escape of the quote. -/
theorem scans_encode_mixed :
    let t := "(\\\x60é".toList
    let written := inAlphabet true (encode .template t)
    let literal := Text.bytes ('\x60' :: written ++ ['\x60'])
    Style.template.quote? = some '\x60' ∧ written = "(\\\\\\\x60\\u00e9".toList ∧
      literalEnd? (Text.bytes "f(".toList ++ (literal ++ Text.bytes ")".toList)) 2 = some 15 ∧
      closerFrom 0x28 0x29 .code 1 2 (literal ++ Text.bytes ")".toList) = some 16 ∧
      Style.around ("f(".toList ++ ('\x60' :: written ++ "\x60)".toList)) 7 = .template := by
  intro t written literal
  have hlength : literal.length = 13 := by decide +kernel
  have hothers : ∀ c ∈ t, ∀ other : Style, other.quote? = some c → other = .template := by
    intro c hc other hother
    cases other <;> cases hother
    · exact absurd hc (by decide)
    · exact absurd hc (by decide)
    · rfl
  obtain ⟨hend, hcloser, haround⟩ := @scans_encode .template '\x60' rfl true t
  refine ⟨rfl, by decide +kernel, ?_, ?_, ?_⟩
  · exact (hend (Text.bytes "f(".toList) (Text.bytes ")".toList)).trans (by rw [hlength]; rfl)
  · rw [hcloser, hlength]
    rfl
  · rw [haround hothers "f(".toList "\x60)".toList 7 (by decide) (by decide) (by decide +kernel)]
    exact if_pos (by decide)

end Retouch.Literal
