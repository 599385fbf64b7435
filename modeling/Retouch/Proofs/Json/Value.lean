import Retouch.Proofs.Json.RoundTrip

/-! Reading back values that are written without space. A number goes on as long as digits follow, so a value is
read back where it ends: before a comma, before a closing bracket, or where the text ends. -/
namespace Retouch.Json.Read

open Text

variable {α : Type} {ds rest : List UInt8} {b : UInt8}

/-! ## What follows a value -/

/-- What may follow a value: nothing, a comma or a closing bracket. -/
def Ends (rest : List UInt8) : Prop := ∀ b ∈ rest.head?, b = 0x2C ∨ b = 0x5D ∨ b = 0x7D

lemma ends_nil : Ends [] := nofun

lemma ends_cons (h : b = 0x2C ∨ b = 0x5D ∨ b = 0x7D) (rest : List UInt8) : Ends (b :: rest) := by
  rintro c ⟨⟩
  exact h

lemma Ends.head?_ne (h : Ends rest) (hb : b ≠ 0x2C ∧ b ≠ 0x5D ∧ b ≠ 0x7D) : rest.head? ≠ some b := by
  intro hhead
  rcases h b hhead with rfl | rfl | rfl
  · exact hb.1 rfl
  · exact hb.2.1 rfl
  · exact hb.2.2 rfl

lemma Ends.not_isDigitByte (h : Ends rest) : ∀ b ∈ rest.head?, isDigitByte b = false := by
  intro b hb
  rcases h b hb with rfl | rfl | rfl
  all_goals decide

/-! ## Numbers -/

/-- A number as it is written: digits, of which the first is a zero only if it stands alone. -/
structure IsNumeral (ds : List UInt8) : Prop where
  nonempty : ds ≠ []
  digits : ∀ d ∈ ds, isDigitByte d = true
  plain : ds.head? = some 0x30 → ds.length = 1

lemma run_digits (hds : ∀ d ∈ ds, isDigitByte d = true) (hrest : ∀ b ∈ rest.head?, isDigitByte b = false) :
    digits.run (ds ++ rest) = .ok (ds, rest) := by
  have hrun : digits.run (ds ++ rest) =
      .ok ((ds ++ rest).takeWhile isDigitByte, (ds ++ rest).dropWhile isDigitByte) := rfl
  rw [hrun, List.takeWhile_append_of_pos hds, List.dropWhile_append_of_pos hds]
  cases rest with
  | nil => simp
  | cons b rest => simp [hrest b rfl]

lemma IsNumeral.exists_cons (h : IsNumeral ds) : ∃ b bs, ds = b :: bs ∧ isDigitByte b = true := by
  obtain ⟨b, bs, rfl⟩ := List.exists_cons_of_ne_nil h.nonempty
  exact ⟨b, bs, rfl, h.digits b List.mem_cons_self⟩

lemma isBlankByte_of_isDigitByte (h : isDigitByte b = true) : isBlankByte b = false := by
  rw [← Bool.not_eq_true]
  intro hblank
  simp only [isBlankByte, Bool.or_eq_true, beq_iff_eq] at hblank
  rcases hblank with ((rfl | rfl) | rfl) | rfl
  all_goals cases h

/-- The largest double is larger than any number of 64 bits. -/
lemma not_isHuge {n : Nat} (h : n < UInt64.size) : Decimal.isHuge ⟨n, 0⟩ = false := by
  have hlimit : UInt64.size ≤ Nat.pow 2 1024 - Nat.pow 2 970 := by decide +kernel
  have hpow : Nat.pow 10 0 = 1 := rfl
  unfold Decimal.isHuge
  split
  · rfl
  · change (decide (400 ≤ 0) || decide (Nat.pow 2 1024 - Nat.pow 2 970 ≤ n * Nat.pow 10 0)) = false
    rw [hpow, Nat.mul_one]
    generalize Nat.pow 2 1024 - Nat.pow 2 970 = limit at hlimit ⊢
    rw [decide_eq_false (by decide), decide_eq_false (by omega)]
    rfl

section Numerals

variable (hds : IsNumeral ds) (hrest : Ends rest)
include hds hrest

lemma run_decimal : decimal.run (ds ++ rest) = .ok ((⟨digitsValue ds, 0⟩, true), rest) := by
  have hplain : (decide (ds.head? = some 0x30) && decide (ds.length ≠ 1)) = false := by
    simpa using hds.plain
  have hpoint : rest.head? ≠ some 0x2E := hrest.head?_ne (by decide)
  have hpower : (decide (rest.head? = some 0x65) || decide (rest.head? = some 0x45)) = false := by
    simp [hrest.head?_ne (b := 0x65) (by decide), hrest.head?_ne (b := 0x45) (by decide)]
  obtain ⟨b, bs, hcons, hb⟩ := hds.exists_cons
  have hhead : (ds ++ rest).head? = some b := by rw [hcons]; rfl
  unfold decimal
  rw [run_bind_of_ok (run_peek _), hhead]
  dsimp only
  rw [hb, if_neg (by decide), run_bind_of_ok (run_digits hds.digits hrest.not_isDigitByte), hplain,
    if_neg Bool.false_ne_true, run_bind_of_ok (run_peek _), if_neg hpoint, run_bind_of_ok (run_peek _), hpower,
    if_neg Bool.false_ne_true, List.append_nil]
  rfl

lemma run_number (hsmall : digitsValue ds < UInt64.size) :
    number.run (ds ++ rest) = .ok (some (digitsValue ds), rest) := by
  obtain ⟨b, bs, hcons, hb⟩ := hds.exists_cons
  have hminus : (ds ++ rest).head? ≠ some 0x2D := by
    rw [hcons]
    rintro ⟨⟩
    cases hb
  unfold number
  rw [run_bind_of_ok (run_peek _)]
  dsimp only
  rw [decide_eq_false hminus, if_neg hminus, run_bind_of_ok (run_decimal hds hrest)]
  dsimp only
  rw [not_isHuge hsmall, if_neg Bool.false_ne_true, decide_eq_true hsmall]
  rfl

end Numerals

/-! ## Written numbers -/

/-- No zero stands before the digits of a number. -/
lemma eq_zero_of_head?_toDigits {n : Nat} (h : (Nat.toDigits 10 n).head? = some '0') : n = 0 := by
  induction n using Nat.strongRecOn with
  | ind n ih =>
    by_cases hlt : n < 10
    · rw [Nat.toDigits_of_lt_base hlt, List.head?_cons, Option.some.injEq] at h
      have hzero : ∀ n < 10, n.digitChar = '0' → n = 0 := by decide
      exact hzero n hlt h
    · have hdiv : n / 10 < n := Nat.div_lt_self (by omega) (by decide)
      rw [Nat.toDigits_of_base_le (by decide) (Nat.not_lt.1 hlt),
        List.head?_append_of_ne_nil _ Nat.toDigits_ne_nil] at h
      have := ih (n / 10) hdiv h
      omega

lemma utf8EncodeChar_of_isDigit {c : Char} (h : c.isDigit = true) :
    String.utf8EncodeChar c = [UInt8.ofNat c.toNat] ∧ isDigitByte (UInt8.ofNat c.toNat) = true ∧
      (UInt8.ofNat c.toNat).toNat = c.toNat := by
  have hall : ∀ n < 58, 48 ≤ n → String.utf8EncodeChar (Char.ofNat n) = [UInt8.ofNat n] ∧
      isDigitByte (UInt8.ofNat n) = true ∧ (UInt8.ofNat n).toNat = n := by decide +kernel
  obtain ⟨hlow, hhigh⟩ := Char.isDigit_iff_toNat.1 h
  have hc := hall c.toNat (Nat.lt_succ_of_le hhigh) hlow
  rwa [Char.ofNat_toNat] at hc

lemma bytes_digits {t : Text} (h : ∀ c ∈ t, c.isDigit = true) : bytes t = t.map fun c => UInt8.ofNat c.toNat := by
  rw [bytes, List.map_eq_flatMap]
  exact List.flatMap_congr fun c hc => (utf8EncodeChar_of_isDigit (h c hc)).1

lemma digitsValue_bytes {t : Text} (h : ∀ c ∈ t, c.isDigit = true) :
    digitsValue (bytes t) = Nat.ofDigitChars 10 t 0 := by
  rw [bytes_digits h, digitsValue, List.foldl_map, Nat.ofDigitChars_eq_foldl]
  refine List.foldl_ext _ _ 0 fun n c hc => ?_
  rw [(utf8EncodeChar_of_isDigit (h c hc)).2.2]
  rfl

/-- What is written for a number is a numeral of its value. -/
lemma isNumeral_repr (n : Nat) : IsNumeral (bytes n.repr.toList) ∧ digitsValue (bytes n.repr.toList) = n := by
  have hdigits : ∀ c ∈ Nat.toDigits 10 n, c.isDigit = true := fun c hc =>
    Nat.isDigit_of_mem_toDigits (by decide) (by decide) hc
  rw [Nat.toList_repr, digitsValue_bytes hdigits, Nat.ofDigitChars_ten_toDigits, bytes_digits hdigits]
  refine ⟨⟨?_, ?_, ?_⟩, rfl⟩
  · exact fun hnil => Nat.toDigits_ne_nil (List.map_eq_nil_iff.1 hnil)
  · exact List.forall_mem_map.2 fun c hc => (utf8EncodeChar_of_isDigit (hdigits c hc)).2.1
  · intro hhead
    rw [List.head?_map, Option.map_eq_some_iff] at hhead
    obtain ⟨c, hc, hbyte⟩ := hhead
    have hvalue := (utf8EncodeChar_of_isDigit (hdigits c (List.mem_of_head? hc))).2.2
    rw [hbyte] at hvalue
    obtain rfl : c = '0' := Char.toNat_inj.1 hvalue.symm
    rw [eq_zero_of_head?_toDigits hc]
    rfl

/-! ## Items -/

lemma run_endArray (rest : List UInt8) : endArray.run (0x5D :: rest) = .ok ((), rest) := by
  rw [endArray, run_bind_of_ok (run_peekSolid_cons (by decide))]
  rfl

lemma run_nextItem (isFirst : Bool) (hb : isBlankByte b = false) (hclose : b ≠ 0x5D) :
    (nextItem isFirst).run (separator isFirst ++ b :: rest) = .ok (true, b :: rest) := by
  cases isFirst with
  | true =>
    change (nextItem true).run (b :: rest) = _
    rw [nextItem, run_bind_of_ok (run_peekSolid_cons hb)]
    split
    · next heq => cases heq
    · next heq => exact absurd (Option.some.inj heq) hclose
    · rfl
  | false =>
    change (nextItem false).run (0x2C :: b :: rest) = _
    rw [nextItem, run_bind_of_ok (run_peekSolid_cons (by decide))]
    change (skip >>= fun _ => demandSolid >>= fun b => _).run _ = _
    rw [run_bind_of_ok (run_skip _ _), run_bind_of_ok (run_demandSolid_cons hb), if_neg hclose]
    rfl

lemma run_nextItem_end (isFirst : Bool) : (nextItem isFirst).run (0x5D :: rest) = .ok (false, 0x5D :: rest) := by
  rw [nextItem, run_bind_of_ok (run_peekSolid_cons (by decide))]
  rfl

/-- Items as they are written, with a comma before them if others stand before. -/
def writtenItems (isFirst : Bool) : List (List UInt8) → List UInt8
  | [] => []
  | item :: items => separator isFirst ++ item ++ writtenItems false items

lemma length_le_writtenItems (isFirst : Bool) {items : List (List UInt8)} (h : ∀ item ∈ items, item ≠ []) :
    items.length ≤ (writtenItems isFirst items).length := by
  induction items generalizing isFirst with
  | nil => exact Nat.le_refl 0
  | cons item items ih =>
    obtain ⟨hitem, hitems⟩ := List.forall_mem_cons.1 h
    have := List.length_pos_iff.2 hitem
    have := ih false hitems
    simp only [writtenItems, List.length_append, List.length_cons]
    omega

/-- A comma or the closing bracket follows an item. -/
lemma ends_writtenItems (items : List (List UInt8)) (rest : List UInt8) :
    Ends (writtenItems false items ++ 0x5D :: rest) := by
  cases items with
  | nil => exact ends_cons (.inr (.inl rfl)) _
  | cons item items => exact ends_cons (.inl rfl) _

/-- What is written for an item begins neither with white space nor with the bracket that closes an array. -/
def Opens (written : List UInt8) : Prop := ∃ b bs, written = b :: bs ∧ isBlankByte b = false ∧ b ≠ 0x5D

section Items

variable {β : Type} {item : Reader β} {written : α → List UInt8} {meant : α → β}
  (hopens : ∀ a, Opens (written a)) (hread : ∀ a rest, Ends rest → item.run (written a ++ rest) = .ok (meant a, rest))
include hopens hread

/-- Items are read one by one, up to the closing bracket. -/
lemma run_items {as : List α} {fuel : Nat} (hfuel : as.length < fuel) (isFirst : Bool) :
    (items item fuel isFirst).run (writtenItems isFirst (as.map written) ++ 0x5D :: rest) =
      .ok (as.map meant, 0x5D :: rest) := by
  induction as generalizing fuel isFirst with
  | nil =>
    obtain ⟨fuel, rfl⟩ := Nat.exists_eq_succ_of_ne_zero (Nat.ne_of_gt hfuel)
    rw [items, List.map_nil, writtenItems, List.nil_append, run_bind_of_ok (run_nextItem_end isFirst)]
    rfl
  | cons a as ih =>
    obtain ⟨fuel, rfl⟩ := Nat.exists_eq_succ_of_ne_zero (Nat.ne_of_gt (Nat.zero_lt_of_lt hfuel))
    have hlater := ih (Nat.lt_of_succ_lt_succ hfuel) false
    have hitem := hread a _ (ends_writtenItems (as.map written) rest)
    obtain ⟨b, bs, hbs, hblank, hclose⟩ := hopens a
    rw [hbs] at hitem
    rw [List.map_cons, writtenItems, hbs, items]
    simp only [List.append_assoc, List.cons_append] at hitem ⊢
    rw [run_bind_of_ok (run_nextItem isFirst hblank hclose), if_pos rfl, run_bind_of_ok hitem,
      run_bind_of_ok hlater]
    rfl

lemma run_allItems (as : List α) (rest : List UInt8) :
    (allItems item).run (0x5B :: (writtenItems true (as.map written) ++ 0x5D :: rest)) =
      .ok (as.map meant, rest) := by
  let body := writtenItems true (as.map written) ++ 0x5D :: rest
  have hget : (get : Reader (List UInt8)).run body = .ok (body, body) := rfl
  have hne : ∀ item ∈ as.map written, item ≠ [] := by
    refine List.forall_mem_map.2 fun a _ hnil => ?_
    obtain ⟨b, bs, hbs, -⟩ := hopens a
    rw [hbs] at hnil
    cases hnil
  have hfuel : as.length < body.length + 1 := by
    have hlength := length_le_writtenItems true hne
    rw [List.length_map] at hlength
    simp only [body, List.length_append]
    omega
  rw [allItems, run_bind_of_ok (run_skip _ _), run_bind_of_ok hget, run_bind_of_ok (run_items hopens hread hfuel true),
    run_bind_of_ok (run_endArray rest)]
  rfl

end Items

/-! ## Written arrays -/

/-- An array, each of its characters rewritten, is its rewritten items between brackets, as long as no bracket and
no comma is rewritten. -/
lemma bytes_flatMap_array {f : Char → Text} (hopen : f '[' = ['[']) (hcomma : f ',' = [','])
    (hclose : f ']' = [']']) (js : List Json) : bytes ((compact (.array js)).flatMap f) =
      0x5B :: (writtenItems true (js.map fun j => bytes ((compact j).flatMap f)) ++ [0x5D]) := by
  have hbracket (t : Text) : bytes ('[' :: t) = 0x5B :: bytes t := rfl
  have hlater (t : Text) : bytes (',' :: t) = 0x2C :: bytes t := rfl
  have hend : bytes [']'] = [0x5D] := by decide
  have hitems : bytes ((compactItems js).flatMap f) =
      writtenItems true (js.map fun j => bytes ((compact j).flatMap f)) := by
    cases js with
    | nil => rfl
    | cons j js =>
      induction js generalizing j with
      | nil => simp [compactItems, writtenItems, separator]
      | cons j' js ih =>
        have hrest := ih j'
        simp only [List.map_cons, writtenItems, separator, if_true, List.nil_append] at hrest
        simp [compactItems, writtenItems, separator, hcomma, hlater, ← hrest]
  simp [compact, hopen, hclose, hbracket, hend, hitems]

lemma bytes_compact_array (js : List Json) : bytes (compact (.array js)) =
    0x5B :: (writtenItems true (js.map fun j => bytes (compact j)) ++ [0x5D]) := by
  have harray := bytes_flatMap_array (f := fun c => [c]) rfl rfl rfl js
  simpa using harray

lemma opens_compact (j : Json) : Opens (bytes (compact j)) := by
  cases j with
  | null => exact ⟨_, _, rfl, by decide, by decide⟩
  | bool b =>
    cases b with
    | false => exact ⟨_, _, rfl, by decide, by decide⟩
    | true => exact ⟨_, _, rfl, by decide, by decide⟩
  | number n =>
    obtain ⟨b, bs, hcons, hb⟩ := (isNumeral_repr n).1.exists_cons
    refine ⟨b, bs, hcons, isBlankByte_of_isDigitByte hb, ?_⟩
    rintro rfl
    cases hb
  | string s => exact ⟨_, _, rfl, by decide, by decide⟩
  | array js => exact ⟨_, _, bytes_compact_array js, by decide, by decide⟩
  | object ms => exact ⟨0x7B, _, rfl, by decide, by decide⟩

/-! ## Values -/

/-- What is written is read as a value, whatever follows it. -/
def Reads (s : Schema α) (levels : Nat) (written : List UInt8) (a : α) : Prop :=
  ∀ rest, Ends rest → (value s levels).run (written ++ rest) = .ok (a, rest)

lemma Reads.decode {s : Schema α} {written : List UInt8} {a : α} (h : Reads s depthLimit written a) :
    Json.decode s written = .ok a := by
  have hrun := h [] ends_nil
  rw [List.append_nil] at hrun
  rw [Json.decode, hrun]
  rfl

lemma reads_string (levels : Nat) (s : String) : Reads .string levels (bytes (compact (.string s))) s :=
  fun rest _ => run_value_string levels s rest

lemma reads_nat (levels : Nat) {n limit : Nat} (hlimit : n < limit) (hsmall : n < UInt64.size) :
    Reads (.nat limit) levels (bytes (compact (.number n))) n := by
  intro rest hrest
  obtain ⟨hds, hvalue⟩ := isNumeral_repr n
  obtain ⟨b, bs, hcons, hb⟩ := hds.exists_cons
  have hnumber := run_number hds hrest (hvalue.symm ▸ hsmall)
  rw [hvalue] at hnumber
  have hdemand : demandSolid.run (bytes n.repr.toList ++ rest) = .ok (b, bytes n.repr.toList ++ rest) := by
    rw [hcons]
    exact run_demandSolid_cons (isBlankByte_of_isDigitByte hb)
  rw [compact, Json.Read.value, run_bind_of_ok hdemand, hb, Bool.or_true, if_pos rfl, run_bind_of_ok hnumber]
  dsimp only
  rw [if_pos hlimit]
  rfl

section Lists

variable {s : Schema α} {levels : Nat}

/-- A list is read back if each of its items is. -/
lemma reads_list {written : α → List UInt8} (hopens : ∀ a, Opens (written a))
    (hread : ∀ a, Reads s levels (written a) a) (as : List α) :
    Reads (.list s) (levels + 1) (0x5B :: (writtenItems true (as.map written) ++ [0x5D])) as := by
  intro rest _
  have hall : (allItems (value s levels)).run (0x5B :: (writtenItems true (as.map written) ++ 0x5D :: rest)) =
      .ok (as.map id, rest) := run_allItems hopens hread as rest
  rw [List.map_id] at hall
  rw [List.cons_append, List.append_assoc, Json.Read.value, run_bind_of_ok (run_demandSolid_cons (by decide)),
    if_pos rfl]
  exact hall

lemma reads_array {toJson : α → Json} (hread : ∀ a, Reads s levels (bytes (compact (toJson a))) a)
    (as : List α) : Reads (.list s) (levels + 1) (bytes (compact (.array (as.map toJson)))) as := by
  rw [bytes_compact_array, List.map_map]
  exact reads_list (fun a => opens_compact (toJson a)) hread as

end Lists

end Retouch.Json.Read
