import Mathlib.Data.List.DropRight
import Retouch.Proofs.Json.Record
import Retouch.Proofs.Pattern.Opening
import Retouch.Settings.Schema
import Retouch.Writer.Agents

/-! Models that are added to the picker. They are pushed onto the list that is assigned last in reach before
the first model of the picker, after the statement that assigns it. That need not be the list of the picker:
a list inside it may begin and end before. -/
namespace Retouch.Writer.Agents

open Scan Anchored Pattern
open Schema (field requiredField)

variable {settings : Settings} {t front name m rest : Text} {spans : List Span} {M : Match} {es : List Edit}

/-! ## Models as they are pushed -/

/-- What is written for a model. -/
def picked (model : PickerModel) : Json :=
  .object [("description", .string model.description), ("label", .string model.label),
    ("value", .string model.value)]

open Json.Read in
/-- A model is read back with its value, label and description. -/
lemma decode_picked (model : PickerModel) :
    Json.decode PickerModel.schema (picked model).compact.bytes = .ok model := by
  let ms : List (Member PickerModel) :=
    [.string "description" model.description fun v m => { m with description := v },
      .string "label" model.label fun v m => { m with label := v },
      .string "value" model.value fun v m => { m with value := v }]
  let fields : Fields PickerModel :=
    requiredField "value" .string (fun v m => { m with value := v }) <|
      requiredField "label" .string (fun v m => { m with label := v }) <|
      field "description" .string (fun v m => { m with description := v }) .none
  have hread : ∀ m ∈ ms, m.IsReadBy (field? fields 126) := by
    simp only [ms, List.forall_mem_cons]
    exact ⟨isReadBy_string rfl, isReadBy_string rfl, isReadBy_string rfl, List.forall_mem_nil _⟩
  have hnodup : (ms.map (·.name)).Nodup := by simp [ms]
  have hrequired : ∀ name ∈ fields.required, name ∈ ms.map (·.name) := by
    simp [fields, ms, requiredField, field, Fields.required]
  have hpicked : picked model = .object (ms.map fun m => (m.name, m.json)) := rfl
  rw [hpicked]
  exact decode_compact_record hread hnodup hrequired

/-! ## The list that is found -/

/-- A character of an identifier. -/
def isNameChar (c : Char) : Bool := CharClass.contains (.name []) c

lemma covers_assignedList (h : assignedList.Covers m spans) : ∃ name : Text, name ≠ [] ∧
    (∀ c ∈ name, isNameChar c) ∧ m = name ++ "=[".toList ∧ spans = [⟨0, name.size⟩] := by
  obtain ⟨name, bracket, _, _, ⟨_, ⟨hname, hlength, rfl⟩, rfl⟩, ⟨rfl, rfl⟩, rfl, rfl⟩ := h
  exact ⟨name, List.length_pos_iff.1 hlength, hname, rfl, by simp⟩

lemma takes_assignedList (hname : ∀ c ∈ name, isNameChar c) (hne : name ≠ []) (front rest : Text) :
    ∃ spans, assignedList.Takes front (name ++ "=[".toList) rest spans := by
  have hlength : 1 ≤ name.length := List.length_pos_iff.2 hne
  exact ⟨_, name, "=[".toList, _, _, ⟨[], ⟨hname, hlength, nofun, rfl⟩, rfl⟩, ⟨rfl, rfl⟩, rfl, rfl⟩

lemma endsWith_assignedList : EndsWith assignedList '[' := by
  intro m spans h
  obtain ⟨name, -, -, rfl, -⟩ := covers_assignedList h
  exact ⟨name ++ ['='], by simp⟩

/-- Where a name ends, the name that is found begins with the first of its characters. -/
lemma not_isNameChar_of_mem_matchesIn {c : Char} (h : M ∈ assignedList.matchesIn t) {name : Text}
    (ht : t = front ++ [c] ++ (name ++ "=[".toList) ++ rest) (hname : ∀ c ∈ name, isNameChar c)
    (hstart : M.span.start = Text.size (front ++ [c])) : isNameChar c = false := by
  by_contra hc
  rw [Bool.not_eq_false] at hc
  have hwhole : t = front ++ (c :: name ++ "=[".toList) ++ rest := by simp [ht]
  obtain ⟨spans, htakes⟩ :=
    takes_assignedList (List.forall_mem_cons.2 ⟨hc, hname⟩) (List.cons_ne_nil c name) front rest
  have hempty (rest' : Text) (spans' : List Span) : ¬assignedList.Takes front [] rest' spans' := by
    rintro ⟨_, _, _, _, -, ⟨rfl, -⟩, hnil, -⟩
    simp at hnil
  obtain ⟨N, hN, hle, hlt⟩ := exists_holds_matchesIn htakes hempty
  rw [← hwhole] at hN
  have hpos := c.utf8Size_pos
  simp only [Text.size_append, Text.size_cons, Text.size_nil] at hstart
  have hne : N ≠ M := by
    rintro rfl
    omega
  rcases before_or_before hN h hne with hbefore | hbefore
  · obtain ⟨before, covered, after, spans', heq, hcovers, rfl⟩ := standsIn_of_mem_matchesIn hN
    obtain ⟨head, rfl⟩ := endsWith_assignedList _ _ hcovers
    have hstop := hbefore.2
    rw [← Text.size_append] at hlt hstop
    rw [heq, List.append_assoc (front ++ [c])] at ht
    have hend := Text.eq_append_of_size_le ht hlt (by simpa [hstart] using hstop)
    rw [← List.append_assoc] at hend
    obtain rfl := List.singleton_inj.1 (List.append_inj_right' hend rfl)
    exact absurd hc (by decide)
  · have := hbefore.1
    omega

/-- A name that is found is a whole identifier of what is searched. -/
lemma whole_of_mem_matchesIn (h : M ∈ assignedList.matchesIn t) : ∃ front name rest : Text,
    t = front ++ (name ++ "=[".toList) ++ rest ∧ name ≠ [] ∧ (∀ c ∈ name, isNameChar c) ∧
      (∀ c ∈ front.getLast?, isNameChar c = false) ∧
      M = ⟨⟨front.size, front.size + Text.size (name ++ "=[".toList)⟩,
        [⟨front.size, front.size + name.size⟩]⟩ := by
  obtain ⟨front, covered, rest, spans, ht, hcovers, rfl⟩ := standsIn_of_mem_matchesIn h
  obtain ⟨name, hne, hname, rfl, rfl⟩ := covers_assignedList hcovers
  refine ⟨front, name, rest, ht, hne, hname, fun c hc => ?_, by simp [Span.shift]⟩
  obtain ⟨front, rfl⟩ := List.getLast?_eq_some_iff.1 hc
  exact not_isNameChar_of_mem_matchesIn h ht hname rfl

/-! ## The identifier that it is assigned to -/

/-- A bracket opens a list that is assigned to an identifier, which stands after a part of the text. -/
structure Assigns (t : Text) (bracket : Nat) (front name : Text) : Prop where
  stands : ∃ rest, t = front ++ (name ++ "=[".toList) ++ rest
  bracket_eq : bracket = Text.size (front ++ name) + 1
  nonempty : name ≠ []
  named : ∀ c ∈ name, isNameChar c
  whole : ∀ c ∈ front.getLast?, isNameChar c = false

lemma rdropWhile_append (u : Text) : u.rdropWhile isNameChar ++ u.rtakeWhile isNameChar = u :=
  List.rdropWhile_append_rtakeWhile

/-- The identifier reaches back as far as there are characters of an identifier. -/
lemma assigns_of_eq {u name : Text} (ht : t = u ++ (name ++ "=[".toList) ++ rest) (hne : name ≠ [])
    (hname : ∀ c ∈ name, isNameChar c) :
    Assigns t (Text.size (u ++ name) + 1) (u.rdropWhile isNameChar) (u.rtakeWhile isNameChar ++ name) where
  stands := ⟨rest, by
    rw [List.append_assoc _ name, ← List.append_assoc (u.rdropWhile _), rdropWhile_append, ht]⟩
  bracket_eq := by rw [← List.append_assoc, rdropWhile_append]
  nonempty := List.append_ne_nil_of_right_ne_nil _ hne
  named c hc := (List.mem_append.1 hc).elim List.mem_rtakeWhile_imp (hname c)
  whole c hc := by
    obtain ⟨front, hfront⟩ := List.getLast?_eq_some_iff.1 hc
    have hlast := List.rdropWhile_last_not isNameChar u
    simpa [hfront] using hlast

lemma rtakeWhile_eq_nil_iff {a : Text} (h : ∀ c ∈ front.getLast?, isNameChar c = false) :
    (a ++ front).rtakeWhile isNameChar = [] ↔ a.size ≤ Text.size ((a ++ front).rdropWhile isNameChar) := by
  constructor
  · intro hnil
    have happend := rdropWhile_append (a ++ front)
    rw [hnil, List.append_nil] at happend
    simp [happend]
  · intro hle
    rcases List.eq_nil_or_concat front with rfl | ⟨front, c, rfl⟩
    · rw [List.append_nil] at hle ⊢
      have hsize := congrArg Text.size (rdropWhile_append a)
      rw [Text.size_append] at hsize
      exact Text.size_eq_zero.1 (by omega)
    · rw [List.concat_eq_append] at h ⊢
      rw [← List.append_assoc, List.rtakeWhile_concat_neg]
      simpa using h

/-- The name that is found is the end of an identifier, and all of it unless the search begins inside. -/
lemma exists_assigns {anchor s : Span} {reach : Reach} {list : Text}
    (h : M ∈ inReach t assignedList reach anchor) (hcapture : M.captures[0]? = some s)
    (hlist : t.slice? s.start s.stop = some list) :
    ∃ bracket front name, M.span.stop = bracket + 1 ∧ Assigns t bracket front name ∧ list <:+ name ∧
      (list = name ↔ t.boundaryBefore (anchor.start - reach.before) ≤ front.size) := by
  obtain ⟨slice, M', hM', hslice, rfl⟩ := exists_of_mem_inReach h
  obtain ⟨a, b, ht, hlow, -⟩ := Text.slice?_eq_some.1 hslice
  obtain ⟨front, name, rest, rfl, hne, hname, hwhole, rfl⟩ := whole_of_mem_matchesIn hM'
  rw [← hlow] at hcapture ⊢
  obtain rfl := Option.some.inj hcapture
  have ht' : t = a ++ front ++ (name ++ "=[".toList) ++ (rest ++ b) := by simp [ht]
  have hread := Text.slice?_append (a ++ front) name ("=[".toList ++ (rest ++ b))
  rw [← List.append_assoc, List.append_assoc _ name, ← ht', Text.size_append, Nat.add_assoc] at hread
  obtain rfl := Option.some.inj (hlist.symm.trans hread)
  have htwo : Text.size "=[".toList = 2 := by decide
  refine ⟨_, _, _, ?_, assigns_of_eq ht' hne hname, List.suffix_append _ _, ?_⟩
  · simp only [Match.shift, Span.shift, Text.size_append, htwo]
    omega
  · rw [List.self_eq_append_left, rtakeWhile_eq_nil_iff hwhole]

/-! ## What is pushed, and where -/

lemma cases_of_planPicker (h : planPicker settings t = .ok es) : ∃ a list bracket stop,
    Finds t firstModel ⟨200, 0⟩ assignedList a ∧ a.capture t "model options list" 0 = .ok list ∧
      a.found.span.stop = bracket + 1 ∧ balancedEnd? t bracket 0x5B 0x5D = some stop ∧
      t.bytes[stop]? = some 0x3B ∧ es = [.insert (stop + 1) (settings.pickerModels.flatMap (push list))] := by
  obtain ⟨_, -, h⟩ := Attempt.bind_eq_ok.1 h
  obtain ⟨a, hfind, h⟩ := Attempt.bind_eq_ok.1 h
  obtain ⟨list, hlist, h⟩ := Attempt.bind_eq_ok.1 h
  obtain ⟨bracket, hbracket, h⟩ := Attempt.bind_eq_ok.1 h
  obtain ⟨stop, hstop, h⟩ := Attempt.bind_eq_ok.1 h
  have hlast := Span.stop_eq_of_last? (Attempt.demand_eq_ok.1 hbracket)
  dsimp only at h
  split at h
  · cases h
  · next hsemicolon =>
    cases h
    exact ⟨a, list, bracket, stop, find_eq_ok_iff.1 hfind, hlist, hlast, Attempt.orSkip_eq_ok.1 hstop,
      not_not.1 hsemicolon, rfl⟩

/-- Models are pushed, each so that it is read back, onto the list that is assigned last in reach before the
first model of the picker, after the statement that assigns it. Its name is the whole identifier that it is
assigned to, unless the search begins inside that. The list holds the first model exactly if the brackets before
the model do not close it. -/
theorem planPicker_lt_stop_iff (h : planPicker settings t = .ok es) :
    ∃ a bracket stop front name list between, Finds t firstModel ⟨200, 0⟩ assignedList a ∧
      a.found.span.stop = bracket + 1 ∧
      (∀ m ∈ inReach t assignedList ⟨200, 0⟩ a.anchor, m ≠ a.found → m.Before a.found) ∧
      Assigns t bracket front name ∧ list <:+ name ∧
      (list = name ↔ t.boundaryBefore (a.anchor.start - 200) ≤ front.size) ∧
      balancedEnd? t bracket 0x5B 0x5D = some stop ∧ t.bytes[stop]? = some 0x3B ∧
      es = [.insert (stop + 1) (settings.pickerModels.flatMap fun model =>
        list ++ ".push(".toList ++ (picked model).compact ++ ");".toList)] ∧
      (∀ model, Json.decode PickerModel.schema (picked model).compact.bytes = .ok model) ∧
      t.slice? (bracket + 1) a.anchor.start = some between ∧
      (a.anchor.stop < stop ↔ ClosesNothing 0x5B 0x5D between.bytes) := by
  obtain ⟨a, list, bracket, stop, hfinds, hlist, hbracket, hstop, hsemicolon, rfl⟩ := cases_of_planPicker h
  obtain ⟨s, hs, hlist⟩ := capture_eq_ok hlist
  obtain ⟨place, front, name, hplace, hassigns, hsuffix, hwhole⟩ := exists_assigns hfinds.mem hs hlist
  obtain rfl : place = bracket := by omega
  have hopener : '[' ∉ firstModel := by decide
  have hcloser : 0x5D ∉ firstModel.bytes := by decide
  obtain ⟨place', between, hplace', hslice, hiff⟩ := hfinds.closesPast_iff endsWith_assignedList hopener
    (by decide : Text.bytes ['['] = [0x5B]) rfl rfl (by decide) hcloser
  obtain rfl : place' = place := by omega
  have hpast : a.anchor.stop < stop ↔ ClosesPast t 0x5B 0x5D place' a.anchor := by
    rw [ClosesPast, hstop]
    simp
  have hlast := (hfinds.last endsWith_assignedList hopener).2
  refine ⟨a, place', stop, front, name, list, between, hfinds, hbracket, hlast, hassigns, hsuffix, hwhole, hstop,
    hsemicolon, rfl, decode_picked, hslice, ?_⟩
  rw [hpast, hiff, hstop]
  simp

/-- A list that ends before the list around it comes to its first model. -/
def nestedList : Text := ("Q=[\x7bvalue:\"opus\",f()\x7blet k=[];return k\x7d\x7d," ++
  "\x7bvalue:\"default\",label:\"Default (recommended)\"\x7d];").toList

def oneModel : Settings := { Settings.default with pickerModels := [⟨"m", "M", "D"⟩] }

/-- The model is pushed onto the inner list, which does not hold the first model. -/
theorem not_closesPast_nestedList : ∃ a, (planPicker oneModel nestedList =
      .ok [.insert 30 "k.push(\x7b\"description\":\"D\",\"label\":\"M\",\"value\":\"m\"\x7d);".toList]) ∧
    Finds nestedList firstModel ⟨200, 0⟩ assignedList a ∧ ¬ClosesPast nestedList 0x5B 0x5D 27 a.anchor := by
  have hplan : planPicker oneModel nestedList =
      .ok [.insert 30 "k.push(\x7b\"description\":\"D\",\"label\":\"M\",\"value\":\"m\"\x7d);".toList] := by
    decide +kernel
  obtain ⟨a, bracket, stop, front, name, list, between, hfinds, hbracket, -, -, -, -, hstop, -, -, -, hslice,
    hiff⟩ := planPicker_lt_stop_iff hplan
  have ha : Anchored.find nestedList "model options list" firstModel ⟨200, 0⟩ assignedList =
      .ok ⟨⟨41, 87⟩, ⟨25, 28⟩, [⟨25, 26⟩]⟩ := by decide +kernel
  obtain rfl := Except.ok.inj ((find_eq_ok_iff.2 hfinds).symm.trans ha)
  obtain rfl : bracket = 27 := by
    dsimp only at hbracket
    omega
  have hbetween : nestedList.slice? 28 41 = some "];return k\x7d\x7d,".toList := by decide +kernel
  obtain rfl := Option.some.inj (hslice.symm.trans hbetween)
  refine ⟨_, hplan, hfinds, ?_⟩
  rintro ⟨stop', hstop', hpast⟩
  obtain rfl := Option.some.inj (hstop.symm.trans hstop')
  exact absurd (hiff.1 hpast) (by decide +kernel)

end Retouch.Writer.Agents
