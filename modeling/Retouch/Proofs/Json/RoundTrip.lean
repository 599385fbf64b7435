import Retouch.Json.Decode
import Retouch.Json.Value
import Retouch.Proofs.SortedMap
import Retouch.Proofs.Text.Found
import Retouch.Proofs.Text.Utf16
import Retouch.Proofs.Text.Utf8

/-! Reading what has been written as JSON. A reader takes what is written for a value and nothing after
it: characters of a string with their escapes, the string, and an object with one member to a line. -/
namespace Retouch.Json.Read

open Text

variable {α β : Type} {r : Reader α} {bs bs' rest : List UInt8} {b : UInt8}

lemma run_bind_of_ok {a : α} {k : α → Reader β} (h : r.run bs = .ok (a, bs')) :
    (r >>= k).run bs = (k a).run bs' := by
  rw [StateT.run_bind, h]
  rfl

/-! ## Strings -/

lemma utf8EncodeChar_digitChar : ∀ k < 16, ∃ b, String.utf8EncodeChar k.digitChar = [b] ∧ hexValue? b = some k := by
  have hdigits : ∀ k < 16, String.utf8EncodeChar k.digitChar = [UInt8.ofNat k.digitChar.toNat] ∧
      hexValue? (UInt8.ofNat k.digitChar.toNat) = some k := by decide +kernel
  exact fun k hk => ⟨_, hdigits k hk⟩

/-- The four digits of an escape have the value of the unit. -/
lemma bytes_unitEscape {u : Nat} (h : u < 0x10000) :
    ∃ a b c d, bytes (unitEscape u) = [0x5C, 0x75, a, b, c, d] ∧ unit? a b c d = some u := by
  obtain ⟨a, ha, ha'⟩ := utf8EncodeChar_digitChar (u / 4096) (by omega)
  obtain ⟨b, hb, hb'⟩ := utf8EncodeChar_digitChar (u / 256 % 16) (by omega)
  obtain ⟨c, hc, hc'⟩ := utf8EncodeChar_digitChar (u / 16 % 16) (by omega)
  obtain ⟨d, hd, hd'⟩ := utf8EncodeChar_digitChar (u % 16) (by omega)
  have hslash : String.utf8EncodeChar '\\' = [0x5C] := rfl
  have hletter : String.utf8EncodeChar 'u' = [0x75] := rfl
  refine ⟨a, b, c, d, ?_, ?_⟩
  · rw [unitEscape, hexPadded_four h]
    simp only [bytes, List.flatMap_cons, List.flatMap_nil, hslash, hletter, ha, hb, hc, hd]
    rfl
  · simp only [unit?, ha', hb', hc', hd', Option.bind_eq_bind, Option.bind_some, Option.pure_def,
      Option.some.injEq]
    omega

/-- The escape of a unit that is a character of its own. -/
lemma stringBody_unitEscape {u : Nat} (h : u < 0xD800 ∨ 0xDFFF < u ∧ u < 0x10000) (found rest : List UInt8) :
    stringBody found (bytes (unitEscape u) ++ rest) = stringBody (encodeReversed u found) rest := by
  obtain ⟨a, b, c, d, hbytes, hunit⟩ := bytes_unitEscape (u := u) (by omega)
  rw [hbytes]
  simp only [List.cons_append, List.nil_append]
  rw [stringBody, hunit]
  dsimp only
  rw [if_neg (by simp; omega), if_pos (by simp; omega)]

/-- A byte that stands for itself. -/
lemma stringBody_plain (h : 0x20 ≤ b) (hquote : b ≠ 0x22) (hslash : b ≠ 0x5C)
    (found rest : List UInt8) : stringBody found (b :: rest) = stringBody (b :: found) rest := by
  have hlow : ¬b < 0x20 := by
    rw [UInt8.le_iff_toNat_le] at h
    rw [UInt8.lt_iff_toNat_lt]
    omega
  rw [stringBody, if_neg hlow]
  · exact hquote
  · exact fun hb _ => hslash hb
  · exact fun _ _ _ _ _ hb _ => hslash hb
  · exact fun _ _ hb _ => hslash hb

lemma stringBody_plains (h : ∀ b ∈ bs, 0x20 ≤ b ∧ b ≠ 0x22 ∧ b ≠ 0x5C) (found rest : List UInt8) :
    stringBody found (bs ++ rest) = stringBody (bs.reverse ++ found) rest := by
  induction bs generalizing found with
  | nil => rfl
  | cons b bs ih =>
    obtain ⟨⟨hlow, hquote, hslash⟩, hbs⟩ := List.forall_mem_cons.1 h
    rw [List.cons_append, stringBody_plain hlow hquote hslash, ih hbs]
    simp

lemma stringBody_short {c : UInt8} (h : shortEscape? b = some c) (hb : b ≠ 0x75)
    (found rest : List UInt8) :
    stringBody found (0x5C :: b :: rest) = stringBody (c :: found) rest := by
  rw [stringBody, h]
  exact fun _ _ _ _ _ hb' _ => hb hb'

/-- Bytes of a character that needs no escape. -/
lemma plain_of_mem {c : Char} (hquote : c ≠ '"') (hslash : c ≠ '\\') (hlow : ¬c.toNat < 0x20)
    (hb : b ∈ String.utf8EncodeChar c) : 0x20 ≤ b ∧ b ≠ 0x22 ∧ b ≠ 0x5C := by
  have hbyte : 0x20 ≤ b.toNat := by
    by_cases hshort : b.toNat < 0x80
    · rw [toNat_eq_of_utf8EncodeChar (utf8EncodeChar_eq_singleton hb hshort)]
      omega
    · omega
  refine ⟨UInt8.le_iff_toNat_le.2 hbyte, ?_, ?_⟩
  · rintro rfl
    exact hquote (eq_of_mem_utf8EncodeChar hb (by decide) rfl)
  · rintro rfl
    exact hslash (eq_of_mem_utf8EncodeChar hb (by decide) rfl)

lemma stringBody_escapedChar (c : Char) (found rest : List UInt8) :
    stringBody found (bytes (escapedChar c) ++ rest) =
      stringBody ((String.utf8EncodeChar c).reverse ++ found) rest := by
  unfold escapedChar
  split
  case h_8 hquote hslash _ _ _ _ _ =>
    split
    · next hlow => rw [stringBody_unitEscape (by omega), encodeReversed, Char.ofNat_toNat]
    · next hlow =>
      have hsingle : bytes [c] = String.utf8EncodeChar c := by simp [bytes]
      rw [hsingle, stringBody_plains fun b hb => plain_of_mem hquote hslash hlow hb]
  all_goals exact stringBody_short rfl (by decide) found rest

/-- A text is read back if each of its characters is, whatever is written for one. -/
lemma stringBody_flatMap {written : Char → Text}
    (hwritten : ∀ c found rest, stringBody found (bytes (written c) ++ rest) =
      stringBody ((String.utf8EncodeChar c).reverse ++ found) rest) (t : Text) (found rest : List UInt8) :
    stringBody found (bytes (t.flatMap written) ++ 0x22 :: rest) = .ok (found.reverse ++ bytes t, rest) := by
  induction t generalizing found with
  | nil =>
    rw [List.flatMap_nil, bytes_nil, List.nil_append, List.append_nil, stringBody]
  | cons c t ih =>
    rw [List.flatMap_cons, bytes_append, List.append_assoc, hwritten, ih]
    simp [bytes]

lemma stringBody_escaped (t : Text) (found rest : List UInt8) :
    stringBody found (bytes (t.flatMap escapedChar) ++ 0x22 :: rest) = .ok (found.reverse ++ bytes t, rest) :=
  stringBody_flatMap stringBody_escapedChar t found rest

lemma bytes_quoted (t : Text) (rest : List UInt8) : bytes (quoted t) ++ rest =
    0x22 :: (bytes (t.flatMap escapedChar) ++ 0x22 :: rest) := by
  rw [quoted, List.cons_append, bytes, List.flatMap_cons, List.flatMap_append, List.append_assoc,
    List.append_assoc]
  rfl

/-- A string is read from any body that stands for its characters. -/
lemma run_quotedString_of_body {s : String} (h : stringBody [] bs = .ok (bytes s.toList, rest)) :
    quotedString.run (0x22 :: bs) = .ok (s, rest) := by
  have hskip : skip.run (0x22 :: bs) = .ok ((), bs) := rfl
  have hget : (get : Reader (List UInt8)).run bs = .ok (bs, bs) := rfl
  have hlift : (liftM (Except.ok (bytes s.toList, rest) : Except ReadError _) :
      Reader (List UInt8 × List UInt8)).run bs = .ok ((bytes s.toList, rest), bs) := rfl
  have hset : (set rest : Reader PUnit).run bs = .ok (⟨⟩, rest) := rfl
  rw [quotedString, run_bind_of_ok hskip, run_bind_of_ok hget, h, run_bind_of_ok hlift]
  dsimp only
  rw [run_bind_of_ok hset, Utf8.decode?_bytes]
  dsimp only
  rw [String.ofList_toList]
  rfl

/-- Every string is read back, whatever characters it has. -/
theorem run_quotedString (s : String) (rest : List UInt8) :
    quotedString.run (bytes (quoted s.toList) ++ rest) = .ok (s, rest) := by
  rw [bytes_quoted]
  exact run_quotedString_of_body (stringBody_escaped s.toList [] rest)

/-! ## Members -/

lemma run_peekSolid (hbs : ∀ b ∈ bs, isBlankByte b = true) (hb : isBlankByte b = false) :
    peekSolid.run (bs ++ b :: rest) = .ok (some b, b :: rest) := by
  have hdrop : (bs ++ b :: rest).dropWhile isBlankByte = b :: rest := by
    rw [List.dropWhile_append_of_pos hbs, List.dropWhile_cons_of_neg (by simp [hb])]
  have hmodify : (modify (·.dropWhile isBlankByte) : Reader PUnit).run (bs ++ b :: rest) =
      .ok (⟨⟩, (bs ++ b :: rest).dropWhile isBlankByte) := rfl
  rw [hdrop] at hmodify
  rw [peekSolid, run_bind_of_ok hmodify]
  rfl

lemma run_peekSolid_cons (hb : isBlankByte b = false) :
    peekSolid.run (b :: rest) = .ok (some b, b :: rest) := by
  have hnone : ∀ b ∈ ([] : List UInt8), isBlankByte b = true := fun _ h => absurd h List.not_mem_nil
  exact run_peekSolid hnone hb

lemma run_demandSolid (hbs : ∀ b ∈ bs, isBlankByte b = true) (hb : isBlankByte b = false) :
    demandSolid.run (bs ++ b :: rest) = .ok (b, b :: rest) := by
  rw [demandSolid, run_bind_of_ok (run_peekSolid hbs hb)]
  rfl

lemma run_colon (rest : List UInt8) : colon.run (0x3A :: rest) = .ok ((), rest) := by
  rw [colon, run_bind_of_ok (run_peekSolid_cons (by decide))]
  rfl

lemma run_endObject (rest : List UInt8) : endObject.run (0x7D :: rest) = .ok ((), rest) := by
  rw [endObject, run_bind_of_ok (run_peekSolid_cons (by decide))]
  rfl

/-- What stands before a member: a comma, unless it is the first one. -/
def separator (isFirst : Bool) : List UInt8 := if isFirst then [] else [0x2C]

lemma run_skip (b : UInt8) (rest : List UInt8) : skip.run (b :: rest) = .ok ((), rest) := rfl

lemma run_peek (bs : List UInt8) : peek.run bs = .ok (bs.head?, bs) := rfl

lemma run_nextMember (isFirst : Bool) (hbs : ∀ b ∈ bs, isBlankByte b = true) :
    (nextMember isFirst).run (separator isFirst ++ bs ++ 0x22 :: rest) =
      .ok (true, 0x22 :: rest) := by
  cases isFirst with
  | true =>
    change (nextMember true).run (bs ++ 0x22 :: rest) = _
    rw [nextMember, run_bind_of_ok (run_peekSolid hbs (by decide))]
    rfl
  | false =>
    have hquote : demandSolid.run (bs ++ 0x22 :: rest) = .ok (0x22, 0x22 :: rest) :=
      run_demandSolid hbs (by decide)
    change (nextMember false).run (0x2C :: (bs ++ 0x22 :: rest)) = _
    rw [nextMember, run_bind_of_ok (run_peekSolid_cons (by decide))]
    change (skip >>= fun _ => demandSolid >>= fun b => _).run _ = _
    rw [run_bind_of_ok (run_skip _ _), run_bind_of_ok hquote]
    rfl

lemma run_nextMember_end (isFirst : Bool) (hbs : ∀ b ∈ bs, isBlankByte b = true) :
    (nextMember isFirst).run (bs ++ 0x7D :: rest) = .ok (false, 0x7D :: rest) := by
  rw [nextMember, run_bind_of_ok (run_peekSolid hbs (by decide))]
  rfl

/-- Members as they are written: each after a comma, unless it is the first one, and a gap. -/
def writtenMembers (gap : List UInt8) (text : Json → List UInt8) (isFirst : Bool) : List (String × Json) → List UInt8
  | [] => []
  | (key, j) :: members => separator isFirst ++ gap ++
      (bytes (quoted key.toList) ++ 0x3A :: (text j ++ writtenMembers gap text false members))

/-- Members with a comma between them, as they are written. -/
lemma bytes_eq_writtenMembers {write : List (String × Json) → Text} (gap : Text) (text : Json → Text)
    (hone : ∀ m, write [m] = gap ++ quoted m.1.toList ++ ':' :: text m.2)
    (hmore : ∀ m m' ms, write (m :: m' :: ms) = write [m] ++ ',' :: write (m' :: ms))
    (m : String × Json) (ms : List (String × Json)) :
    bytes (write (m :: ms)) = writtenMembers (bytes gap) (fun j => bytes (text j)) true (m :: ms) := by
  have hcolon (t : Text) : bytes (':' :: t) = 0x3A :: bytes t := rfl
  have hcomma (t : Text) : bytes (',' :: t) = 0x2C :: bytes t := rfl
  induction ms generalizing m with
  | nil => simp [hone, writtenMembers, separator, hcolon]
  | cons m' ms ih =>
    have hlater : writtenMembers (bytes gap) (fun j => bytes (text j)) false (m' :: ms) =
        0x2C :: bytes (write (m' :: ms)) := by
      rw [ih]
      rfl
    rw [hmore, writtenMembers, hlater]
    simp [hone, separator, hcolon, hcomma]

lemma length_le_writtenMembers (gap : List UInt8) (text : Json → List UInt8) (isFirst : Bool)
    (members : List (String × Json)) : members.length ≤ (writtenMembers gap text isFirst members).length := by
  induction members generalizing isFirst with
  | nil => exact Nat.le_refl 0
  | cons m members ih =>
    have := ih false
    simp only [writtenMembers, List.length_append, List.length_cons]
    omega

section Members

variable {gap : List UInt8} {text : Json → List UInt8} {value : String → Reader α} {toJson : α → Json}
  (hgap : ∀ b ∈ gap, isBlankByte b = true)
  (hvalue : ∀ key a rest, (value key).run (text (toJson a) ++ rest) = .ok (a, rest))
include hgap hvalue

/-- Members are read back one by one, up to the closing brace. -/
lemma run_members {entries : List (String × α)} {fuel : Nat} (hfuel : entries.length < fuel)
    (isFirst : Bool) (hbs : ∀ b ∈ bs, isBlankByte b = true) :
    (members quotedString value fuel isFirst).run
        (writtenMembers gap text isFirst (entries.map fun e => (e.1, toJson e.2)) ++ bs ++ 0x7D :: rest) =
      .ok (entries, 0x7D :: rest) := by
  induction entries generalizing fuel isFirst with
  | nil =>
    obtain ⟨fuel, rfl⟩ := Nat.exists_eq_succ_of_ne_zero (Nat.ne_of_gt hfuel)
    rw [members, List.map_nil, writtenMembers, List.nil_append,
      run_bind_of_ok (run_nextMember_end isFirst hbs)]
    rfl
  | cons e entries ih =>
    obtain ⟨fuel, rfl⟩ := Nat.exists_eq_succ_of_ne_zero (Nat.ne_of_gt (Nat.zero_lt_of_lt hfuel))
    obtain ⟨key, a⟩ := e
    have hlater := ih (Nat.lt_of_succ_lt_succ hfuel) false
    rw [List.map_cons, writtenMembers]
    simp only [bytes_quoted, List.append_assoc, List.cons_append]
    rw [← List.append_assoc, members, run_bind_of_ok (run_nextMember isFirst hgap), if_pos rfl,
      ← bytes_quoted, run_bind_of_ok (run_quotedString key _), run_bind_of_ok (run_colon _),
      run_bind_of_ok (hvalue key a _)]
    rw [List.append_assoc] at hlater
    rw [run_bind_of_ok hlater]
    rfl

/-- An object is read back with its members in order. -/
lemma run_allMembers (entries : List (String × α)) (hbs : ∀ b ∈ bs, isBlankByte b = true) (rest : List UInt8) :
    (allMembers quotedString value).run
        (0x7B :: (writtenMembers gap text true (entries.map fun e => (e.1, toJson e.2)) ++ bs ++ 0x7D :: rest)) =
      .ok (entries, rest) := by
  let written := entries.map fun e => (e.1, toJson e.2)
  let body := writtenMembers gap text true written ++ bs ++ 0x7D :: rest
  have hget : (get : Reader (List UInt8)).run body = .ok (body, body) := rfl
  have hfuel : entries.length < body.length + 1 := by
    have hlength := length_le_writtenMembers gap text true written
    rw [List.length_map] at hlength
    simp only [body, List.length_append]
    omega
  rw [allMembers, run_bind_of_ok (run_skip _ _), run_bind_of_ok hget,
    run_bind_of_ok (run_members hgap hvalue hfuel true hbs), run_bind_of_ok (run_endObject rest)]
  rfl

end Members

/-! ## Objects with one member to a line -/

lemma isBlankByte_of_mem_indent {depth : Nat} (hb : b ∈ bytes (indent depth)) :
    isBlankByte b = true := by
  have hfeed : String.utf8EncodeChar '\n' = [0x0A] := rfl
  have hspace : String.utf8EncodeChar ' ' = [0x20] := rfl
  obtain ⟨c, hc, hb⟩ := List.mem_flatMap.1 hb
  rcases List.mem_cons.1 hc with rfl | hc
  · rw [hfeed, List.mem_singleton] at hb
    rw [hb]
    rfl
  · rw [List.eq_of_mem_replicate hc, hspace, List.mem_singleton] at hb
    rw [hb]
    rfl

/-- What is written for a value after the colon, with one member to a line. -/
def prettyValue (depth : Nat) (j : Json) : List UInt8 := 0x20 :: bytes (prettyAt depth j)

lemma bytes_prettyMembers (depth : Nat) (m : String × Json) (ms : List (String × Json)) :
    bytes (prettyMembers depth (m :: ms)) =
      writtenMembers (bytes (indent depth)) (prettyValue depth) true (m :: ms) := by
  refine bytes_eq_writtenMembers (indent depth) (fun j => ' ' :: prettyAt depth j) (fun m => ?_) (fun m m' ms => ?_)
    m ms
  · simp [prettyMembers]
  · simp [prettyMembers]

/-- An object is its members between braces. -/
lemma bytes_object (depth : Nat) (ms : List (String × Json)) :
    ∃ bs, (∀ b ∈ bs, isBlankByte b = true) ∧ ∀ rest, bytes (prettyAt depth (.object ms)) ++ rest = 0x7B ::
      (writtenMembers (bytes (indent (depth + 1))) (prettyValue (depth + 1)) true ms ++ bs ++ 0x7D :: rest) := by
  cases ms with
  | nil => exact ⟨[], by simp, fun rest => rfl⟩
  | cons m ms =>
    refine ⟨bytes (indent depth), fun b => isBlankByte_of_mem_indent, fun rest => ?_⟩
    have hopen (t : Text) : bytes ('\x7b' :: t) = 0x7B :: bytes t := rfl
    have hclose : bytes ['\x7d'] = [0x7D] := by decide
    simp [prettyAt, ← bytes_prettyMembers, hopen, hclose]

lemma run_word (w rest : List UInt8) : (word w).run (w ++ rest) = .ok ((), rest) := by
  induction w with
  | nil => rfl
  | cons b w ih =>
    rw [List.cons_append, word, run_bind_of_ok (run_peek _)]
    dsimp only [List.head?_cons]
    rw [run_bind_of_ok (run_skip _ _), if_pos rfl, ih]

lemma run_demandSolid_cons (hb : isBlankByte b = false) :
    demandSolid.run (b :: rest) = .ok (b, b :: rest) := by
  rw [demandSolid, run_bind_of_ok (run_peekSolid_cons hb)]
  rfl

lemma run_value_string_of_body {s : String} (levels : Nat)
    (h : stringBody [] bs = .ok (bytes s.toList, rest)) :
    (Json.Read.value .string levels).run (0x22 :: bs) = .ok (s, rest) := by
  rw [Json.Read.value, run_bind_of_ok (run_demandSolid_cons (by decide)), if_pos rfl, run_quotedString_of_body h]

lemma run_value_string (levels : Nat) (s : String) (rest : List UInt8) :
    (Json.Read.value .string levels).run (bytes (quoted s.toList) ++ rest) = .ok (s, rest) := by
  rw [bytes_quoted]
  exact run_value_string_of_body levels (stringBody_escaped s.toList [] rest)

/-- A string that may be missing is read back. -/
lemma run_optional_string (levels depth : Nat) (o : Option String) (rest : List UInt8) :
    (Json.Read.value (.optional .string) levels).run
        (0x20 :: (bytes (prettyAt depth (.ofOption o)) ++ rest)) = .ok (o, rest) := by
  have hblank : ∀ b ∈ [0x20], isBlankByte b = true := List.forall_mem_singleton.2 rfl
  rw [Json.Read.value]
  cases o with
  | none =>
    have hword : bytes (prettyAt depth (.ofOption none)) = nullWord := rfl
    have hpeek : peekSolid.run (0x20 :: (nullWord ++ rest)) = .ok (some 0x6E, nullWord ++ rest) :=
      run_peekSolid hblank (by decide)
    rw [hword, run_bind_of_ok hpeek, if_pos rfl, run_bind_of_ok (run_word _ _)]
    rfl
  | some s =>
    have hpeek : peekSolid.run (0x20 :: (bytes (quoted s.toList) ++ rest)) =
        .ok (some 0x22, bytes (quoted s.toList) ++ rest) := by
      rw [bytes_quoted]
      exact run_peekSolid hblank (by decide)
    rw [Json.ofOption, prettyAt, run_bind_of_ok hpeek, if_neg (by decide),
      run_bind_of_ok (run_value_string levels s rest)]
    rfl

/-- A dictionary of such strings is read back as it was written. -/
theorem decode_pretty_object (m : SortedMap String (Option String)) :
    decode (.dict (.optional .string))
      (bytes (pretty (.object (m.entries.map fun e => (e.1, .ofOption e.2))))) = .ok m := by
  let members := m.entries.map fun e => (e.1, Json.ofOption e.2)
  obtain ⟨bs, hbs, hobject⟩ := bytes_object 0 members
  have hbytes := hobject []
  rw [List.append_nil] at hbytes
  have hopen : demandSolid.run (bytes (pretty (.object members))) =
      .ok (0x7B, bytes (pretty (.object members))) := by
    rw [pretty, hbytes, run_demandSolid_cons (by decide)]
  have hentry (_ : String) (o : Option String) (rest : List UInt8) :
      (Json.Read.value (.optional .string) 126).run (prettyValue 1 (.ofOption o) ++ rest) = .ok (o, rest) :=
    run_optional_string 126 1 o rest
  have hmembers : (allMembers quotedString fun _ => Json.Read.value (.optional .string) 126).run
      (bytes (pretty (.object members))) = .ok (m.entries, []) := by
    rw [pretty, hbytes]
    exact run_allMembers (fun b => isBlankByte_of_mem_indent) hentry m.entries hbs []
  have hvalue : (Json.Read.value (.dict (.optional .string)) depthLimit).run
      (bytes (pretty (.object members))) = .ok (m, []) := by
    rw [Json.Read.value, run_bind_of_ok hopen, if_pos rfl]
    change (allMembers _ _ >>= fun found => pure (SortedMap.ofList found)).run _ = _
    rw [run_bind_of_ok hmembers, SortedMap.ofList_entries]
    rfl
  rw [decode, hvalue]
  rfl

end Retouch.Json.Read
