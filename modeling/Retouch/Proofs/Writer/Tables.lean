import Mathlib.Data.List.Nodup
import Retouch.Proofs.Json.Record
import Retouch.Proofs.Json.Strings
import Retouch.Writer.Palette

/-! The tables of the themes as the bundle reads them: a switch that returns the colors of the first case with
an id, the options in their order, and an object of names in which the last name of an id counts. -/
namespace Retouch.Writer.Palette

open Json Json.Read Text

abbrev Properties := SortedMap String String

/-- The properties of an object with these members. A member of the name `__proto__` is no property. -/
def ownProperties (members : Properties) : Properties := members.erase "__proto__"

/-- A switch over strings, each of whose clauses returns an object. -/
structure Switch where
  clauses : List (String × Properties)
  fallback : Properties
  deriving DecidableEq

/-- The first clause of an id is taken. -/
def Switch.returns (s : Switch) (id : String) : Properties :=
  ((s.clauses.find? (·.1 = id)).map (·.2)).getD s.fallback

structure Tables where
  switch : Switch
  options : List Properties
  names : Properties
  deriving DecidableEq

namespace Read

def object : Reader Properties := do return ownProperties (← value (.dict .string) depthLimit)

def objects : Reader (List Properties) := do
  if (← demandSolid) = 0x5B then allItems object else refuse

/-- Clauses up to the last one, which has no key. -/
def clauses : (fuel : Nat) → Reader (List (String × Properties))
  | 0 => fail .incomplete
  | fuel + 1 => do
    if (← peek) = some 0x63 then
      word (bytes "case".toList)
      let id ← value .string depthLimit
      word (bytes ":return ".toList)
      let colors ← object
      word (bytes ";".toList)
      return (id, colors) :: (← clauses fuel)
    else return []

def switch (selector : Text) : Reader Switch := do
  word (bytes "switch(".toList)
  word (bytes selector)
  word (bytes ")\x7b".toList)
  let found ← clauses ((← get).length + 1)
  word (bytes "default:return ".toList)
  let fallback ← object
  word (bytes "\x7d".toList)
  return ⟨found, fallback⟩

/-- What a text is read as, to its end. -/
def whole {α : Type} (r : Reader α) (t : Text) : Except Json.ReadError α := do
  let (a, rest) ← r.run t.bytes
  if rest.isEmpty then return a else .error .malformed

end Read

/-- The tables that three texts hold, where the switch is over the value of a name. -/
def Tables.read (selector switch options names : Text) : Except Json.ReadError Tables := do
  return ⟨← Read.whole (Read.switch selector) switch, ← Read.whole Read.objects options,
    ← Read.whole Read.object names⟩

def optionOf (theme : Theme) : Properties := .ofList [("label", theme.name), ("value", theme.id)]

/-- The tables of the themes, the first of which stands in for any other id. -/
def tablesOf (first : Theme) (themes : List Theme) : Tables where
  switch := ⟨themes.map fun theme => (theme.id, ownProperties theme.colors), ownProperties first.colors⟩
  options := themes.map optionOf
  names := ownProperties (.ofList (themes.map fun theme => (theme.id, theme.name)))

/-! ## Reading what is written -/

namespace Read

lemma run_object (entries : List (String × String)) (rest : List UInt8) :
    object.run (bytes (Json.object (entries.map fun e => (e.1, .string e.2))).compact ++ rest) =
      .ok (ownProperties (.ofList entries), rest) :=
  run_bind_of_ok (run_value_dict 126 entries rest)

lemma run_object_colorsOf (theme : Theme) (rest : List UInt8) :
    object.run (bytes (colorsOf theme) ++ rest) = .ok (ownProperties theme.colors, rest) := by
  have hobject := run_object theme.colors.entries rest
  rwa [SortedMap.ofList_entries] at hobject

lemma run_clauses (themes : List Theme) {fuel : Nat} (hfuel : themes.length < fuel) {rest : List UInt8}
    (hrest : rest.head? ≠ some 0x63) :
    (clauses fuel).run (bytes (themes.flatMap caseOf) ++ rest) =
      .ok (themes.map fun theme => (theme.id, ownProperties theme.colors), rest) := by
  induction themes generalizing fuel with
  | nil =>
    obtain ⟨fuel, rfl⟩ := Nat.exists_eq_succ_of_ne_zero (Nat.ne_of_gt hfuel)
    rw [List.flatMap_nil, bytes_nil, List.nil_append, clauses, run_bind_of_ok (run_peek rest), if_neg hrest]
    rfl
  | cons theme themes ih =>
    obtain ⟨fuel, rfl⟩ := Nat.exists_eq_succ_of_ne_zero (Nat.ne_of_gt (Nat.zero_lt_of_lt hfuel))
    have hcase : caseOf theme = "case".toList ++ Json.quoted theme.id.toList ++ ":return ".toList ++ colorsOf theme ++
        ";".toList := rfl
    have hfirst : (bytes ((theme :: themes).flatMap caseOf) ++ rest).head? = some 0x63 := rfl
    rw [clauses, run_bind_of_ok (run_peek _), if_pos hfirst, List.flatMap_cons, hcase]
    simp only [bytes_append, List.append_assoc]
    rw [run_bind_of_ok (run_word _ _), run_bind_of_ok (run_value_string _ _ _), run_bind_of_ok (run_word _ _),
      run_bind_of_ok (run_object_colorsOf theme _), run_bind_of_ok (run_word _ _),
      run_bind_of_ok (ih (Nat.lt_of_succ_lt_succ hfuel))]
    rfl

lemma length_le_bytes_cases (themes : List Theme) : themes.length ≤ (bytes (themes.flatMap caseOf)).length := by
  induction themes with
  | nil => exact Nat.zero_le _
  | cons theme themes ih =>
    have hcase : 0 < (bytes (caseOf theme)).length := List.length_pos_of_mem (List.mem_cons_self (a := 0x63))
    rw [List.flatMap_cons, bytes_append, List.length_append, List.length_cons]
    omega

lemma run_switch (selector : Text) (first : Theme) (later : List Theme) :
    (switch selector).run (bytes (switchOf selector (first :: later))) =
      .ok ((tablesOf first (first :: later)).switch, []) := by
  let fallback := bytes "default:return ".toList ++ (bytes (colorsOf first) ++ bytes "\x7d".toList)
  let body := bytes ((first :: later).flatMap caseOf) ++ fallback
  have hget : (get : Reader (List UInt8)).run body = .ok (body, body) := rfl
  have htext : switchOf selector (first :: later) = "switch(".toList ++ selector ++ ")\x7b".toList ++
      (first :: later).flatMap caseOf ++ ("default:return ".toList ++ colorsOf first) ++ "\x7d".toList := rfl
  have hswitch : bytes (switchOf selector (first :: later)) =
      bytes "switch(".toList ++ (bytes selector ++ (bytes ")\x7b".toList ++ body)) := by
    rw [htext]
    simp only [bytes_append, List.append_assoc, body, fallback]
  have hfuel : (first :: later).length < body.length + 1 := by
    have := length_le_bytes_cases (first :: later)
    simp only [body, List.length_append]
    omega
  have hdefault : fallback.head? ≠ some 0x63 := by
    rw [show fallback.head? = some 0x64 from rfl]
    decide
  rw [hswitch, switch, run_bind_of_ok (run_word _ _), run_bind_of_ok (run_word _ _), run_bind_of_ok (run_word _ _),
    run_bind_of_ok hget, run_bind_of_ok (run_clauses _ hfuel hdefault), run_bind_of_ok (run_word _ _),
    run_bind_of_ok (run_object_colorsOf first _)]
  exact run_bind_of_ok (run_word (bytes "\x7d".toList) [])

lemma ownProperties_optionOf (theme : Theme) : ownProperties (optionOf theme) = optionOf theme := by
  have hlast : compare "value" "label" = .gt := by decide
  have hentries : (optionOf theme).entries = [("label", theme.name), ("value", theme.id)] := by
    simp [optionOf, SortedMap.ofList, SortedMap.insert, SortedMap.insertEntry, SortedMap.empty, hlast]
  have hlabel : (compare "__proto__" "label" != .eq) = true := by decide
  have hvalue : (compare "__proto__" "value" != .eq) = true := by decide
  refine SortedMap.ext ?_
  rw [ownProperties, SortedMap.erase]
  dsimp only
  rw [hentries]
  simp [hlabel, hvalue]

lemma run_objects (first : Theme) (themes : List Theme) :
    objects.run (bytes (pickerOf themes)) = .ok ((tablesOf first themes).options, []) := by
  let written (theme : Theme) : List UInt8 :=
    bytes (Json.object [("label", .string theme.name), ("value", .string theme.id)]).compact
  have hread (theme : Theme) (rest : List UInt8) :
      object.run (written theme ++ rest) = .ok (optionOf theme, rest) := by
    rw [← ownProperties_optionOf theme]
    exact run_object [("label", theme.name), ("value", theme.id)] rest
  have hpicker : bytes (pickerOf themes) = 0x5B :: (writtenItems true (themes.map written) ++ [0x5D]) := by
    rw [pickerOf, bytes_compact_array, List.map_map]
    rfl
  rw [hpicker, objects, run_bind_of_ok (run_demandSolid_cons (by decide)), if_pos rfl]
  exact run_allItems (fun theme => opens_compact _) (fun theme rest _ => hread theme rest) themes []

lemma run_names (first : Theme) (themes : List Theme) :
    object.run (bytes (namesOf themes)) = .ok ((tablesOf first themes).names, []) := by
  have hobject := run_object (SortedMap.ofList (themes.map fun theme => (theme.id, theme.name))).entries []
  rwa [SortedMap.ofList_entries, List.append_nil] at hobject

lemma whole_of_run {α : Type} {r : Reader α} {t : Text} {a : α} (h : r.run (bytes t) = .ok (a, [])) :
    whole r t = .ok a := by
  rw [whole, h]
  rfl

end Read

/-! ## What the tables give -/

def firstOf? (themes : List Theme) (id : String) : Option Theme := themes.find? (·.id = id)

def lastOf? (themes : List Theme) (id : String) : Option Theme := themes.reverse.find? (·.id = id)

/-- What the tables give for an id comes from one theme of that id. -/
def Tables.AgreeOn (tables : Tables) (themes : List Theme) (id : String) : Prop :=
  ∃ theme ∈ themes, theme.id = id ∧ tables.switch.returns id = ownProperties theme.colors ∧
    tables.names.get? id = some theme.name

variable {first last theme : Theme} {themes : List Theme} {id : String}

lemma read_tablesOf (selector : Text) (first : Theme) (later : List Theme) :
    Tables.read selector (switchOf selector (first :: later)) (pickerOf (first :: later)) (namesOf (first :: later)) =
      .ok (tablesOf first (first :: later)) := by
  rw [Tables.read, Read.whole_of_run (Read.run_switch selector first later),
    Read.whole_of_run (Read.run_objects first (first :: later)),
    Read.whole_of_run (Read.run_names first (first :: later))]
  rfl

lemma mem_of_firstOf? (h : firstOf? themes id = some theme) : theme ∈ themes ∧ theme.id = id :=
  ⟨List.mem_of_find?_eq_some h, by simpa using List.find?_some h⟩

lemma mem_of_lastOf? (h : lastOf? themes id = some theme) : theme ∈ themes ∧ theme.id = id :=
  ⟨List.mem_reverse.1 (mem_of_firstOf? h).1, (mem_of_firstOf? h).2⟩

lemma exists_firstOf? (h : id ∈ themes.map (·.id)) : ∃ theme, firstOf? themes id = some theme := by
  obtain ⟨theme, htheme, hid⟩ := List.mem_map.1 h
  exact Option.isSome_iff_exists.1 (List.find?_isSome.2 ⟨theme, htheme, by simpa using hid⟩)

lemma exists_lastOf? (h : id ∈ themes.map (·.id)) : ∃ theme, lastOf? themes id = some theme :=
  exists_firstOf? (by rwa [List.map_reverse, List.mem_reverse])

lemma returns_tablesOf (first : Theme) (themes : List Theme) (id : String) :
    (tablesOf first themes).switch.returns id = ownProperties ((firstOf? themes id).getD first).colors := by
  rw [Switch.returns, tablesOf, List.find?_map, firstOf?]
  simp only [Function.comp_def, Option.map_map]
  cases themes.find? (·.id = id) <;> rfl

lemma get?_names_tablesOf (first : Theme) (themes : List Theme) (id : String) :
    (tablesOf first themes).names.get? id =
      if id = "__proto__" then none else (lastOf? themes id).map (·.name) := by
  rw [tablesOf]
  dsimp only
  rw [ownProperties, SortedMap.get?_erase, SortedMap.get?_ofList, ← List.map_reverse, List.find?_map,
    Option.map_map, lastOf?]
  rfl

lemma agreeOn_tablesOf_iff (fallback : Theme) (hfirst : firstOf? themes id = some first)
    (hlast : lastOf? themes id = some last) :
    (tablesOf fallback themes).AgreeOn themes id ↔ id ≠ "__proto__" ∧
      ∃ theme ∈ themes, theme.id = id ∧ ownProperties theme.colors = ownProperties first.colors ∧
        theme.name = last.name := by
  rw [Tables.AgreeOn, returns_tablesOf, get?_names_tablesOf, hfirst, hlast]
  by_cases h : id = "__proto__"
  · simp [h]
  · simp [h, eq_comm]

/-- Themes of different ids make tables that agree. -/
theorem agreeOn_tablesOf_of_nodup (fallback : Theme) (hnodup : (themes.map (·.id)).Nodup)
    (hproto : "__proto__" ∉ themes.map (·.id)) (h : theme ∈ themes) :
    (tablesOf fallback themes).AgreeOn themes theme.id := by
  have hid : theme.id ∈ themes.map (·.id) := List.mem_map_of_mem h
  have hsame {other : Theme} (hother : other ∈ themes ∧ other.id = theme.id) : other = theme :=
    List.inj_on_of_nodup_map hnodup hother.1 h hother.2
  obtain ⟨first, hfirst⟩ := exists_firstOf? hid
  obtain ⟨last, hlast⟩ := exists_lastOf? hid
  obtain rfl := hsame (mem_of_firstOf? hfirst)
  obtain rfl := hsame (mem_of_lastOf? hlast)
  exact (agreeOn_tablesOf_iff fallback hfirst hlast).2 ⟨fun heq => hproto (heq ▸ hid), _, h, rfl, rfl, rfl⟩

/-- The tables that are written for the themes are read back: the options are the themes in their order, an id of no
theme has the colors of the first one, and any other id has the colors of its first theme and the name of its last.
So the tables agree on an id exactly if one theme of the id has both, unless the id is the name that no property
can have. -/
theorem exists_read_tables (selector : Text) (fallback : Theme) (later : List Theme) :
    let themes := fallback :: later
    ∃ tables, Tables.read selector (switchOf selector themes) (pickerOf themes) (namesOf themes) = .ok tables ∧
      tables.options = themes.map optionOf ∧
      (∀ id ∉ themes.map (·.id), tables.switch.returns id = ownProperties fallback.colors) ∧
      ∀ id ∈ themes.map (·.id), ∃ first last, firstOf? themes id = some first ∧ lastOf? themes id = some last ∧
        tables.switch.returns id = ownProperties first.colors ∧
        tables.names.get? id = (if id = "__proto__" then none else some last.name) ∧
        (tables.AgreeOn themes id ↔ id ≠ "__proto__" ∧
          ∃ theme ∈ themes, theme.id = id ∧ ownProperties theme.colors = ownProperties first.colors ∧
            theme.name = last.name) := by
  intro themes
  refine ⟨tablesOf fallback themes, read_tablesOf selector fallback later, rfl, fun id hid => ?_, fun id hid => ?_⟩
  · have hnone : firstOf? themes id = none := by
      refine List.find?_eq_none.2 fun theme htheme heq => hid ?_
      exact List.mem_map.2 ⟨theme, htheme, by simpa using heq⟩
    rw [returns_tablesOf, hnone]
    rfl
  · obtain ⟨first, hfirst⟩ := exists_firstOf? hid
    obtain ⟨last, hlast⟩ := exists_lastOf? hid
    refine ⟨first, last, hfirst, hlast, ?_, ?_, agreeOn_tablesOf_iff fallback hfirst hlast⟩
    · rw [returns_tablesOf, hfirst]
      rfl
    · rw [get?_names_tablesOf, hlast]
      rfl

/-- Two themes of one id: the switch gives the colors of the first one, and the names that of the second one. -/
theorem not_agreeOn_repeated :
    let owl : Theme := ⟨"night", "Owl", .ofList [("text", "#fff")]⟩
    let bat : Theme := ⟨"night", "Bat", .ofList [("text", "#000")]⟩
    ∃ tables, Tables.read ['A'] (switchOf ['A'] [owl, bat]) (pickerOf [owl, bat]) (namesOf [owl, bat]) = .ok tables ∧
      tables.switch.returns "night" = owl.colors ∧ tables.names.get? "night" = some "Bat" ∧
      ¬tables.AgreeOn [owl, bat] "night" := by
  intro owl bat
  obtain ⟨tables, hread, -, -, hlisted⟩ := exists_read_tables ['A'] owl [bat]
  obtain ⟨first, last, hfirst, hlast, hcolors, hname, hagree⟩ := hlisted "night" (by decide)
  obtain rfl : owl = first := Option.some.inj hfirst
  obtain rfl : bat = last := Option.some.inj hlast
  refine ⟨tables, hread, hcolors.trans (by decide), hname.trans rfl, fun h => ?_⟩
  obtain ⟨-, theme, htheme, -, hsame, hbat⟩ := hagree.1 h
  simp only [List.mem_cons, List.not_mem_nil, or_false] at htheme
  rcases htheme with rfl | rfl
  · exact absurd hbat (by decide)
  · exact absurd hsame (by decide)

end Retouch.Writer.Palette
