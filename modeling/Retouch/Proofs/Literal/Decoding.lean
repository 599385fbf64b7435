import Retouch.Proofs.Literal.Escaping
import Retouch.Proofs.Literal.RoundTrip

/-! Text written into a literal. It decodes to itself, in either alphabet, and nothing in it ends the
literal, opens a hole or breaks a line where no line may end. -/
namespace Retouch.Literal

open Reader

def Item.unit? : Item → Option Nat
  | .unit u => some u
  | .hole _ => none

/-- The text of a literal that holds nothing but text. -/
def decode? (style : Style) (t : Text) : Option Text := do
  let is ← items style (← style.quote?) t
  Text.ofUnits16? (← is.mapM Item.unit?)

/-- The text stays inside a literal: its quote is escaped wherever it stands, and so is the dollar sign
before a brace in a template; line ends are not raw, but for a line feed in a template. -/
structure Contained (style : Style) (quote : Char) (t : Text) : Prop where
  quote : ∀ before after, t = before ++ quote :: after → Escaping before
  hole : style = .template → ∀ before after, t = before ++ '$' :: '\x7b' :: after → Escaping before
  carriageReturn : '\r' ∉ t
  lineFeed : style ≠ .template → '\n' ∉ t

section

variable {style : Style} {quote : Char}

/-! ## Decoding -/

lemma mapM_unit? (us : List Nat) : (us.map Item.unit).mapM Item.unit? = some us := by
  induction us with
  | nil => rfl
  | cons u us ih => simp [List.mapM_cons, Item.unit?, ih]

lemma decode?_inAlphabet_encode (hstyle : style.quote? = some quote) (escaped : Bool) (t : Text) :
    decode? style (inAlphabet escaped (encode style t)) = some t := by
  have hitems : items style quote (inAlphabet escaped (encode style t)) =
      some ((t.flatMap Text.units16).map .unit) := by
    have h := @items_encode style quote escaped hstyle t [] (by simp)
    rw [List.append_nil, items_nil] at h
    simpa using h
  rw [decode?, hstyle]
  simp only [Option.bind_eq_bind, Option.bind_some, hitems, mapM_unit?, Text.ofUnits16?_flatMap]

lemma ascii_unitEscape {u : Nat} (h : u < 0x10000) : ∀ c ∈ Text.unitEscape u, c.toNat < 128 := by
  have hdigit : ∀ k < 16, k.digitChar.toNat < 128 := by decide
  intro c hc
  simp only [Text.unitEscape, Text.hexPadded_four h, List.mem_cons, List.not_mem_nil, or_false] at hc
  rcases hc with rfl | rfl | rfl | rfl | rfl | rfl
  · decide
  · decide
  all_goals exact hdigit _ (by omega)

lemma ascii_toAscii (t : Text) : ∀ c ∈ toAscii t, c.toNat < 128 := by
  intro c hc
  obtain ⟨d, -, hd⟩ := List.mem_flatMap.1 hc
  split at hd
  · next hascii =>
    obtain rfl := List.mem_singleton.1 hd
    exact hascii
  · obtain ⟨u, hu, hc⟩ := List.mem_flatMap.1 hd
    exact ascii_unitEscape (Text.lt_of_mem_units16 hu) c hc

/-! ## Containment -/

/-- A character is written as it is, unless it has a meaning in the literal, or with a backslash before
a character that stands for it. -/
lemma encodeChar_cases (hstyle : style.quote? = some quote) (c : Char) (next : Option Char) :
    (encodeChar style c next = [c] ∧ c ≠ '\\' ∧ c ≠ quote ∧ c ≠ '\r' ∧
        (c = '\n' → style = .template) ∧ (c = '$' → style = .template → next ≠ some '\x7b')) ∨
      ∃ d ∈ ['\\', 'n', 'r', '"', '\'', '\x60', '$'], encodeChar style c next = ['\\', d] := by
  unfold encodeChar
  split
  case h_1 => cases hstyle
  case h_2 => exact .inr ⟨_, by decide, rfl⟩
  case h_3 =>
    cases hstyle
    exact .inl ⟨rfl, by decide, by decide, by decide, fun _ => rfl, nofun⟩
  case h_4 => exact .inr ⟨_, by decide, rfl⟩
  case h_5 => exact .inr ⟨_, by decide, rfl⟩
  case h_6 => exact .inr ⟨_, by decide, rfl⟩
  case h_7 => exact .inr ⟨_, by decide, rfl⟩
  case h_8 => exact .inr ⟨_, by decide, rfl⟩
  case h_9 =>
    cases hstyle
    split
    · exact .inr ⟨_, by decide, rfl⟩
    · next hopen => exact .inl ⟨rfl, by decide, by decide, by decide, nofun, fun _ _ => hopen⟩
  case h_10 _ _ hplain hslash hfeed hreturn _ hdouble hsingle htick hdollar =>
    refine .inl ⟨rfl, hslash, ?_, hreturn, fun h => (hfeed h).elim,
      fun hc htemplate => (hdollar htemplate hc).elim⟩
    rintro rfl
    cases style with
    | plain => exact hplain rfl
    | double => exact hdouble rfl (Option.some.inj hstyle).symm
    | single => exact hsingle rfl (Option.some.inj hstyle).symm
    | template => exact htick rfl (Option.some.inj hstyle).symm

/-- What no encoded text starts with stands in one only where it is escaped. -/
lemma escaping_of_encode (hstyle : style.quote? = some quote) {c : Char} {t front before after : Text}
    (hfront : ¬Escaping front) (hstart : ∀ u, encode style u ≠ c :: after)
    (h : encode style t = before ++ c :: after) : Escaping (front ++ before) := by
  induction t generalizing front before with
  | nil => simp [encode] at h
  | cons x t ih =>
    cases before with
    | nil => exact absurd h (hstart _)
    | cons b before =>
      rw [encode] at h
      rcases encodeChar_cases hstyle x t.head? with ⟨hchar, hx, -⟩ | ⟨d, -, hchar⟩
      · obtain ⟨rfl, hrest⟩ : x = b ∧ encode style t = before ++ c :: after := by
          simpa [hchar] using h
        have hplain : ¬Escaping (front ++ [x]) := not_escaping_of_ne hx
        simpa using ih hplain hrest
      · cases before with
        | nil =>
          obtain rfl : '\\' = b := by simpa [hchar] using congrArg List.head? h
          simpa using hfront
        | cons e before =>
          obtain ⟨rfl, rfl, hrest⟩ : '\\' = b ∧ d = e ∧ encode style t = before ++ c :: after := by
            simpa [hchar] using h
          simpa using ih (not_escaping_pair hfront d) hrest

lemma encode_ne_quote_cons (hstyle : style.quote? = some quote) (t after : Text) :
    encode style t ≠ quote :: after := by
  cases t with
  | nil => simp [encode]
  | cons c t =>
    have hslash : '\\' ≠ quote := by
      rintro rfl
      cases style <;> cases hstyle
    rw [encode]
    rcases encodeChar_cases hstyle c t.head? with ⟨hchar, -, hquote, -⟩ | ⟨d, -, hchar⟩
    · simp [hchar, hquote]
    · simp [hchar, hslash]

lemma encode_ne_hole (t after : Text) : encode .template t ≠ '$' :: '\x7b' :: after := by
  cases t with
  | nil => simp [encode]
  | cons c t =>
    intro h
    rw [encode] at h
    have hstyle : Style.template.quote? = some '\x60' := rfl
    rcases encodeChar_cases hstyle c t.head? with ⟨hchar, -, -, -, -, hdollar⟩ | ⟨d, -, hchar⟩
    · obtain ⟨rfl, hrest⟩ : c = '$' ∧ encode .template t = '\x7b' :: after := by
        simpa [hchar] using h
      have hhead : (inAlphabet false (encode .template t) ++ []).head? = some '\x7b' := by
        simp [inAlphabet, hrest]
      exact hdollar rfl rfl (head?_of_head?_encode (by simp) hhead)
    · simp [hchar] at h

/-- A line end in an encoded text is one that its style allows. -/
lemma not_mem_encode (hstyle : style.quote? = some quote) {c : Char} (hc : c = '\r' ∨ c = '\n')
    (hraw : c = '\n' → style ≠ .template) (t : Text) : c ∉ encode style t := by
  have hletters : c ∉ ['\\', 'n', 'r', '"', '\'', '\x60', '$'] := by
    rcases hc with rfl | rfl <;> decide
  induction t with
  | nil => simp [encode]
  | cons x t ih =>
    rw [encode, List.mem_append, not_or]
    refine ⟨?_, ih⟩
    rcases encodeChar_cases hstyle x t.head? with ⟨hchar, -, -, hreturn, hfeed, -⟩ | ⟨d, hd, hchar⟩
    · rw [hchar, List.mem_singleton]
      rintro rfl
      rcases hc with rfl | rfl
      · exact hreturn rfl
      · exact hraw rfl (hfeed rfl)
    · rw [hchar]
      intro hmem
      rcases List.mem_cons.1 hmem with rfl | hmem
      · exact hletters (by decide)
      · obtain rfl := List.mem_singleton.1 hmem
        exact hletters hd

lemma contained_encode (hstyle : style.quote? = some quote) (t : Text) :
    Contained style quote (encode style t) where
  quote before after h :=
    escaping_of_encode hstyle not_escaping_nil (fun u => encode_ne_quote_cons hstyle u after) h
  hole htemplate before after h := by
    subst htemplate
    exact escaping_of_encode hstyle not_escaping_nil (fun u => encode_ne_hole u after) h
  carriageReturn := not_mem_encode hstyle (.inl rfl) nofun t
  lineFeed hne := not_mem_encode hstyle (.inr rfl) (fun _ => hne) t

end

/-- Every text survives being written into a literal of a quoted style, also with all that is not ASCII
escaped, and it stays inside. -/
theorem decode?_encode {style : Style} {quote : Char} (hstyle : style.quote? = some quote) (t : Text) :
    decode? style (encode style t) = some t ∧
      decode? style (toAscii (encode style t)) = some t ∧
      (∀ c ∈ toAscii (encode style t), c.toNat < 128) ∧
      Contained style quote (encode style t) :=
  ⟨decode?_inAlphabet_encode hstyle false t, decode?_inAlphabet_encode hstyle true t,
    ascii_toAscii _, contained_encode hstyle t⟩

/-- Backslashes before a hole, a quote and characters beyond ASCII. -/
theorem decode?_encode_mixed :
    let t := "\\$\x7b\\\\\x60\r\n\\é😀".toList
    Style.template.quote? = some '\x60' ∧
      toAscii (encode .template t) =
        "\\\\\\$\x7b\\\\\\\\\\\x60\\r\n\\\\\\u00e9\\ud83d\\ude00".toList ∧
      decode? .template (toAscii (encode .template t)) = some t ∧
      Contained .template '\x60' (encode .template t) := by
  intro t
  obtain ⟨-, hdecode, -, hcontained⟩ := @decode?_encode .template '\x60' rfl t
  exact ⟨rfl, by decide +kernel, hdecode, hcontained⟩

end Retouch.Literal
