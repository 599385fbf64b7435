import Retouch.Literal.Encode
import Retouch.Proofs.Json.Value

/-! Lists of strings. A list is read back from its text without space, and also when every character beyond ASCII
has been written as escapes of its units: an escape of one unit or of a pair of surrogates is the character. -/
namespace Retouch.Json.Read

open Text

/-- A list of strings is read back from its text. -/
theorem decode_strings (ss : List String) : decode (.list .string) (bytes (compact (strings ss))) = .ok ss :=
  (reads_array (reads_string 126) ss).decode

/-! ## Lists in ASCII -/

/-- The escapes of the units of a character are read as the character. -/
lemma stringBody_units (c : Char) (found rest : List UInt8) :
    stringBody found (bytes ((units16 c).flatMap unitEscape) ++ rest) =
      stringBody ((String.utf8EncodeChar c).reverse ++ found) rest := by
  have hc := toNat_bounds c
  by_cases hlt : c.toNat < 0x10000
  · rw [units16_of_lt hlt, List.flatMap_singleton, stringBody_unitEscape (by omega), encodeReversed, Char.ofNat_toNat]
  · have hvalue : 0x10000 + (0xD800 + (c.toNat - 0x10000) / 0x400 - 0xD800) * 0x400 +
        (0xDC00 + (c.toNat - 0x10000) % 0x400 - 0xDC00) = c.toNat := by omega
    obtain ⟨a, b, c', d, hhigh, hunit⟩ := bytes_unitEscape (u := 0xD800 + (c.toNat - 0x10000) / 0x400) (by omega)
    obtain ⟨e, f, g, h, hlow, hunit'⟩ := bytes_unitEscape (u := 0xDC00 + (c.toNat - 0x10000) % 0x400) (by omega)
    rw [units16_of_not_lt hlt, List.flatMap_cons, List.flatMap_singleton, bytes_append, hhigh, hlow]
    simp only [List.cons_append, List.nil_append]
    rw [stringBody, hunit]
    dsimp only
    rw [if_neg (by simp; omega), if_neg (by simp; omega)]
    simp only [hunit']
    rw [if_neg (by simp; omega), hvalue, encodeReversed, Char.ofNat_toNat]

lemma toAscii_append (s t : Text) : Literal.toAscii (s ++ t) = Literal.toAscii s ++ Literal.toAscii t :=
  List.flatMap_append

/-- What JSON writes for a character of ASCII is ASCII. -/
lemma toAscii_escapedChar {c : Char} (h : c.toNat < 128) :
    Literal.toAscii (escapedChar c) = escapedChar c := by
  have hall : ∀ n < 128, Literal.toAscii (escapedChar (Char.ofNat n)) = escapedChar (Char.ofNat n) := by
    decide +kernel
  rw [← Char.ofNat_toNat c]
  exact hall _ h

lemma stringBody_toAscii_escapedChar (c : Char) (found rest : List UInt8) :
    stringBody found (bytes (Literal.toAscii (escapedChar c)) ++ rest) =
      stringBody ((String.utf8EncodeChar c).reverse ++ found) rest := by
  by_cases h : c.toNat < 128
  · rw [toAscii_escapedChar h, stringBody_escapedChar]
  · have hplain : escapedChar c = [c] := by
      unfold escapedChar
      split
      case h_8 => exact if_neg (by omega)
      all_goals exact absurd (by decide) h
    rw [hplain, Literal.toAscii, List.flatMap_singleton, if_neg h, stringBody_units]

/-- A string is read back from its text in ASCII. -/
lemma reads_toAscii_string (levels : Nat) (s : String) :
    Reads .string levels (bytes (Literal.toAscii (quoted s.toList))) s := by
  intro rest _
  have hquoted : bytes (Literal.toAscii (quoted s.toList)) =
      0x22 :: (bytes (s.toList.flatMap fun c => Literal.toAscii (escapedChar c)) ++ [0x22]) := by
    have hquote : Literal.toAscii ['"'] = ['"'] := by decide
    have hend : bytes ['"'] = [0x22] := by decide
    have hopen (t : Text) : bytes ('"' :: t) = 0x22 :: bytes t := rfl
    rw [quoted, List.cons_append, ← List.singleton_append, toAscii_append, toAscii_append, hquote,
      List.singleton_append, hopen, bytes_append, hend, Literal.toAscii, List.flatMap_assoc]
    rfl
  rw [hquoted, List.cons_append, List.append_assoc]
  exact run_value_string_of_body levels (stringBody_flatMap stringBody_toAscii_escapedChar s.toList [] rest)

/-- A list of strings is read back from its text in ASCII. -/
theorem decode_toAscii_strings (ss : List String) :
    decode (.list .string) (bytes (Literal.toAscii (compact (strings ss)))) = .ok ss := by
  have hlist : bytes (Literal.toAscii (compact (strings ss))) =
      0x5B :: (writtenItems true (ss.map fun s => bytes (Literal.toAscii (quoted s.toList))) ++ [0x5D]) := by
    rw [strings, Literal.toAscii, bytes_flatMap_array (by decide) (by decide) (by decide), List.map_map]
    rfl
  rw [hlist]
  exact (reads_list (fun s => ⟨0x22, _, rfl, by decide, by decide⟩) (reads_toAscii_string 126) ss).decode

end Retouch.Json.Read
