import Retouch.Proofs.Edit.Splice
import Retouch.Proofs.Json.Strings
import Retouch.Proofs.Pattern.Nearest
import Retouch.Proofs.Scan.Name
import Retouch.Proofs.Text.Occurrences
import Retouch.Writer.Thinking

/-! The words and the phases that are shown while the model thinks. Their writers replace whole constructs: the
function that returns the phases, from its head to the brace that closes it, and of the words the object that is
assigned and the first function that falls back on its holder. The lists that they write are read back as JSON. -/
namespace Retouch.Writer.Thinking

open Attempt Scan Anchored Pattern

variable {settings : Settings} {t front m rest covered name holder : Text} {spans : List Span} {site : Site}

/-! ## Functions without parameters -/

/-- An identifier. -/
def IsName (name : Text) : Prop := name ≠ [] ∧ ∀ c ∈ name, c = '$' ∨ isWord c = true

/-- The head of a function without parameters, up to its brace. -/
def header (name : Text) : Text := "function ".toList ++ name ++ "()".toList

/-- A function without parameters that does nothing but return. -/
def returning (name value : Text) : Text := header name ++ "\x7breturn".toList ++ value ++ ['\x7d']

lemma isName_iff : IsName name ↔ (∀ c ∈ name, (CharClass.name []).contains c = true) ∧ 1 ≤ name.length := by
  have hname (c : Char) : (CharClass.name []).contains c = true ↔ c = '$' ∨ isWord c = true := by
    simp [CharClass.contains]
  simp only [IsName, hname, and_comm, Nat.one_le_iff_ne_zero, ne_eq, List.length_eq_zero_iff]

lemma slice?_name (front name rest : Text) : (front ++ (header name ++ rest)).slice?
    (Text.size (front ++ "function ".toList)) (Text.size (front ++ "function ".toList) + name.size) = some name := by
  have hslice := Text.slice?_append (front ++ "function ".toList) name ("()".toList ++ rest)
  unfold header
  simpa only [List.append_assoc] using hslice

lemma covers_plainFunction (h : plainFunction.Covers covered spans) : ∃ name, IsName name ∧
    covered = header name ++ ['\x7b'] ∧
      spans = [⟨Text.size "function ".toList, Text.size "function ".toList + name.size⟩] := by
  obtain ⟨_, _, _, _, ⟨rfl, rfl⟩, ⟨name, _, _, _, ⟨_, ⟨hname, hlength, rfl⟩, rfl⟩, ⟨rfl, rfl⟩, rfl, rfl⟩, rfl, rfl⟩ := h
  have hbrace : "()\x7b".toList = "()".toList ++ ['\x7b'] := by decide
  refine ⟨name, isName_iff.2 ⟨hname, hlength⟩, ?_, ?_⟩
  · unfold header
    simp only [hbrace, List.append_assoc]
  · simp only [List.nil_append, List.append_nil, List.map_cons, List.map_nil, Span.shift, Nat.add_zero]

lemma endsWith_plainFunction : EndsWith plainFunction '\x7b' := by
  intro covered spans h
  obtain ⟨name, -, rfl, -⟩ := covers_plainFunction h
  exact ⟨header name, rfl⟩

/-! ## Phases -/

/-- A function that returns the phases: its head is the one that is found before them, and what its brace opens
closes after them. -/
structure PhasesFunction (t front name body rest : Text) (a : Anchored) : Prop where
  text : t = front ++ (header name ++ body) ++ rest
  named : IsName name
  finds : Finds t phasesStart ⟨300, 0⟩ plainFunction a
  found : a.found.span = ⟨front.size, Text.size (front ++ header name) + 1⟩
  closes : balancedEnd? t (Text.size (front ++ header name)) 0x7B 0x7D =
    some (Text.size (front ++ (header name ++ body)))
  before : Text.size (front ++ header name) < a.anchor.start
  past : a.anchor.stop ≤ Text.size (front ++ (header name ++ body))

/-- What is found is a head, with the name that is read there. -/
lemma exists_header {a : Anchored} {pattern : String} (h : Finds t phasesStart ⟨300, 0⟩ plainFunction a)
    (hname : a.capture t pattern 0 = .ok name) : ∃ front rest, t = front ++ (header name ++ ['\x7b']) ++ rest ∧
      IsName name ∧ a.found.span = ⟨front.size, Text.size (front ++ header name) + 1⟩ := by
  obtain ⟨front, covered, rest, spans, ht, hcovers, hfound⟩ := h.standsIn
  obtain ⟨name', hname', rfl, rfl⟩ := covers_plainFunction hcovers
  obtain rfl : name = name' := by
    obtain ⟨s, hs, hslice⟩ := capture_eq_ok hname
    rw [hfound] at hs
    obtain rfl := Option.some.inj hs
    have hread := slice?_name front name' (['\x7b'] ++ rest)
    rw [← List.append_assoc (header name'), ← List.append_assoc front, ← ht, Text.size_append, Nat.add_assoc] at hread
    exact Option.some.inj (hslice.symm.trans hread)
  refine ⟨front, rest, ht, hname', ?_⟩
  have hone : Text.size ['\x7b'] = 1 := by decide
  rw [hfound, Text.size_append, Text.size_append, hone, Nat.add_assoc]

lemma cases_of_phasesSite (h : phasesSite t = .ok site) : ∃ front name body rest a,
    PhasesFunction t front name body rest a ∧
      site = ⟨⟨front.size, Text.size (front ++ (header name ++ body))⟩, [name]⟩ := by
  obtain ⟨a, hfind, h⟩ := bind_eq_ok.1 h
  obtain ⟨name, hcapture, h⟩ := bind_eq_ok.1 h
  obtain ⟨brace, hbrace, h⟩ := bind_eq_ok.1 h
  obtain ⟨stop, hstop, h⟩ := bind_eq_ok.1 h
  obtain ⟨hcloses, hpast⟩ := Option.filter_eq_some_iff.1 (orSkip_eq_ok.1 hstop)
  obtain ⟨rfl, hliesIn⟩ := Site.of?_eq_some (orSkip_eq_ok.1 h)
  have hfinds := find_eq_ok_iff.1 hfind
  have hbefore := (hfinds.last endsWith_plainFunction (by decide)).1
  have hpast := of_decide_eq_true hpast
  obtain ⟨front, rest, rfl, hname, hspan⟩ := exists_header hfinds hcapture
  obtain rfl : brace = Text.size (front ++ header name) := by
    have := Span.stop_eq_of_last? (demand_eq_ok.1 hbrace)
    rw [hspan] at this
    exact (Nat.succ.inj this).symm
  rw [hspan] at hbefore hliesIn ⊢
  have hbefore : Text.size (front ++ header name) < a.anchor.start := hbefore
  have hanchor := hfinds.anchor_stop
  obtain ⟨old, hold⟩ := Option.isSome_iff_exists.1 hliesIn
  rw [← List.append_assoc front, List.append_assoc] at hold
  obtain ⟨body, after, ht, rfl, rfl⟩ := Text.exists_of_slice?_append hold (by dsimp only; omega)
  rw [← List.append_assoc, List.append_assoc front] at ht
  exact ⟨front, name, body, after, a, ⟨ht, hname, hfinds, hspan, hcloses, hbefore, hpast⟩, rfl⟩

/-- The phases as they are written, in the alphabet of what stood there. -/
lemma decode_inAlphabetOf_strings (present : Text) (ss : List String) :
    Json.decode (.list .string) (inAlphabetOf present (Json.strings ss).compact).bytes = .ok ss := by
  unfold inAlphabetOf
  split
  · exact Json.Read.decode_toAscii_strings ss
  · exact Json.Read.decode_strings ss

lemma cases_of_planPhases {es : List Edit} (h : planPhases settings t = .ok es) : ∃ front name body rest a,
    PhasesFunction t front name body rest a ∧
      es = [⟨front.size, Text.size (front ++ (header name ++ body)),
        returning name (inAlphabetOf (header name ++ body) (Json.strings settings.spinner.phases).compact)⟩] := by
  unfold planPhases at h
  dsimp only at h
  split at h
  · cases h
  · obtain ⟨site, hsite, h⟩ := bind_eq_ok.1 h
    obtain ⟨name', hname, h⟩ := bind_eq_ok.1 h
    obtain ⟨old, hold, h⟩ := bind_eq_ok.1 h
    obtain ⟨front, name, body, rest, a, hphases, rfl⟩ := cases_of_phasesSite hsite
    obtain rfl : name = name' := Option.some.inj (orSkip_eq_ok.1 hname)
    obtain rfl : header name ++ body = old := by
      have hslice := Text.slice?_append front (header name ++ body) rest
      rw [← hphases.text, ← Text.size_append] at hslice
      exact Option.some.inj (hslice.symm.trans (demand_eq_ok.1 hold))
    obtain rfl := Except.ok.inj h
    refine ⟨front, name, body, rest, a, hphases, ?_⟩
    have hreturn : "()\x7breturn".toList = "()".toList ++ "\x7breturn".toList := by decide
    unfold returning header
    simp only [Edit.replace, hreturn, List.append_assoc]

lemma planPhases_rewrites {r : Reporting} {done : Retouched} (h : (planPhases settings t >>= r.apply t) = .ok done) :
    ∃ front name body rest a list, PhasesFunction t front name body rest a ∧
      done.text = front ++ returning name list ++ rest ∧
      list = inAlphabetOf (header name ++ body) (Json.strings settings.spinner.phases).compact ∧
      Json.decode (.list .string) list.bytes = .ok settings.spinner.phases := by
  obtain ⟨es, hplan, happly⟩ := bind_eq_ok.1 h
  obtain ⟨front, name, body, rest, a, hphases, rfl⟩ := cases_of_planPhases hplan
  obtain ⟨done', hdone, htext⟩ := Edit.exists_apply_one r front (header name ++ body) rest
    (returning name (inAlphabetOf (header name ++ body) (Json.strings settings.spinner.phases).compact))
  rw [← hphases.text, ← Text.size_append] at hdone
  obtain rfl : done' = done := Except.ok.inj (hdone.symm.trans happly)
  exact ⟨front, name, body, rest, a, _, hphases, htext, rfl, decode_inAlphabetOf_strings _ _⟩

/-! ## Words -/

/-- The object of the words: it is assigned at the first of their places that follows an identifier, and ends where
its brace closes. -/
structure WordsObject (t holder : Text) (s : Span) : Prop where
  first : ∃ before assign later, wordsStart.Scans t 0 (before ++ assign :: later) ∧
    (∀ n ∈ before, ∀ name, ¬EndsName t n name) ∧ EndsName t assign holder ∧ s.start = assign + 1
  closes : balancedEnd? t s.start 0x7B 0x7D = some s.stop

lemma nameBefore?_eq_none {n : Nat} (hn : t.isBoundary n) (h : nameBefore? t n = .ok none) (name : Text) :
    ¬EndsName t n name := by
  obtain ⟨o, ho, hiff⟩ := exists_nameBefore? hn
  obtain rfl := Except.ok.inj (h.symm.trans ho)
  rw [← hiff]
  nofun

lemma wordsAt?_eq_none {n : Nat} (h : wordsAt? t n = .ok none) : nameBefore? t n = .ok none := by
  obtain ⟨o, ho, h⟩ := bind_eq_ok.1 h
  cases o with
  | none => exact ho
  | some found =>
    obtain ⟨stop, -, h⟩ := bind_eq_ok.1 h
    obtain ⟨site, -, h⟩ := bind_eq_ok.1 h
    cases h

lemma wordsAt?_eq_some {n : Nat} (hn : t.isBoundary n) (h : wordsAt? t n = .ok (some site)) : ∃ stop holder,
    site = ⟨⟨n + 1, stop⟩, [holder]⟩ ∧ EndsName t n holder ∧ balancedEnd? t (n + 1) 0x7B 0x7D = some stop := by
  obtain ⟨o, ho, h⟩ := bind_eq_ok.1 h
  cases o with
  | none => cases h
  | some found =>
    obtain ⟨start, holder⟩ := found
    obtain ⟨stop, hstop, h⟩ := bind_eq_ok.1 h
    obtain ⟨found, hfound, h⟩ := bind_eq_ok.1 h
    cases h
    obtain ⟨rfl, -⟩ := Site.of?_eq_some (orSkip_eq_ok.1 hfound)
    obtain ⟨o, ho', hiff⟩ := exists_nameBefore? hn
    obtain rfl := Except.ok.inj (ho.symm.trans ho')
    exact ⟨stop, holder, rfl, (hiff holder).1 ⟨start, rfl⟩, orSkip_eq_ok.1 hstop⟩

lemma exists_wordsObject (h : wordsSite t = .ok site) : ∃ holder s, site = ⟨s, [holder]⟩ ∧ WordsObject t holder s := by
  obtain ⟨o, ho, h⟩ := bind_eq_ok.1 h
  obtain rfl := orSkip_eq_ok.1 h
  obtain ⟨before, assign, later, hplaces, hbefore, hsite⟩ := findSomeM?_eq_ok_some ho
  have hboundary {n : Nat} (hn : n ∈ before ++ assign :: later) : t.isBoundary n :=
    (Text.standsAt_of_mem_occurrences (hplaces ▸ hn)).isBoundary
  obtain ⟨stop, holder, rfl, hholder, hstop⟩ :=
    wordsAt?_eq_some (hboundary (List.mem_append_right before List.mem_cons_self)) hsite
  have hscans := Text.scans_occurrences (by decide : wordsStart ≠ []) t
  refine ⟨holder, _, rfl, ⟨before, assign, later, hplaces ▸ hscans, fun n hn => ?_, hholder, rfl⟩, hstop⟩
  exact nameBefore?_eq_none (hboundary (List.mem_append_left _ hn)) (wordsAt?_eq_none (hbefore n hn))

/-- A function that looks the words up under a key and falls back on a holder of words. -/
def IsGetter (holder name getter : Text) : Prop := ∃ lookup key, IsName name ∧ IsName lookup ∧ '"' ∉ key ∧
  getter = returning name (' ' :: lookup ++ "(\"".toList ++ key ++ "\",".toList ++ holder ++ ").words".toList)

lemma takes_name : (many (.name []) 1 none).Takes front m rest [] ↔ IsName m := by
  simp [Takes, isName_iff]

lemma takes_getter : (getter holder).Takes front m rest spans ↔ ∃ name, IsGetter holder name m ∧
    spans = [⟨Text.size (front ++ "function ".toList), Text.size (front ++ "function ".toList) + name.size⟩] := by
  have hopen : "()\x7breturn ".toList = "()".toList ++ ("\x7breturn".toList ++ [' ']) := by decide
  have hclose : ").words\x7d".toList = ").words".toList ++ ['\x7d'] := by decide
  have hkey {front key rest : Text} : (many (.noneOf ['"']) 0 none).Takes front key rest [] ↔ '"' ∉ key := by
    simp [Takes, CharClass.contains, List.forall_mem_ne']
  simp only [getter, Pattern.all, Pattern.text, oneOrMore, anyNumber, nameGroup, takes_literal_seq, takes_many_seq,
    takes_capture_many_seq, takes_name, hkey]
  constructor
  · rintro ⟨_, rfl, name, _, _, hname, rfl, ⟨_, rfl, lookup, _, hlookup, rfl, _, rfl, key, _, hkey, rfl, _, rfl, _, rfl,
      rfl, rfl⟩, rfl⟩
    refine ⟨name, ⟨lookup, key, hname, hlookup, hkey, ?_⟩, rfl⟩
    unfold returning header
    simp only [hopen, hclose, List.append_assoc, List.cons_append, List.nil_append]
  · rintro ⟨name, ⟨lookup, key, hname, hlookup, hkey, rfl⟩, rfl⟩
    refine ⟨_, ?_, name, _, [], hname, rfl, ⟨_, rfl, lookup, _, hlookup, rfl, _, rfl, key, _, hkey, rfl, _, rfl, _, rfl,
      rfl, rfl⟩, rfl⟩
    unfold returning header
    simp only [hopen, hclose, List.append_assoc, List.cons_append, List.nil_append]

/-- The first function that falls back on the holder of the words. -/
structure ReadsWords (t holder name : Text) (s : Span) : Prop where
  stands : ∃ front getter rest, t = front ++ getter ++ rest ∧ IsGetter holder name getter ∧
    s = ⟨front.size, Text.size (front ++ getter)⟩
  first : ∀ front getter rest name, t = front ++ getter ++ rest → IsGetter holder name getter → s.start ≤ front.size

lemma readsWords_of_find {pattern : String} (h : Site.find t pattern (getter holder) = .ok site)
    (hname : site.name pattern 0 = .ok name) : ReadsWords t holder name site.span := by
  obtain ⟨m, hm, hspan, hcaptured⟩ := Site.find_eq_ok h
  obtain ⟨front, found, rest, ht, htakes, hm, hfirst⟩ := exists_first_of_find? hm
  obtain ⟨name', hgetter, hcaptures⟩ := takes_getter.1 htakes
  rw [hcaptures] at hcaptured
  obtain ⟨read, names, hnames, hslice⟩ := Site.captured_cons_eq_ok hcaptured
  obtain rfl : read = name := by
    rw [Site.name, hnames] at hname
    exact Option.some.inj (orSkip_eq_ok.1 hname)
  obtain rfl : read = name' := by
    obtain ⟨lookup, key, -, -, -, rfl⟩ := hgetter
    have hname := slice?_name front name'
    unfold returning at ht
    simp only [ht, List.append_assoc] at hslice
    exact Option.some.inj (hslice.symm.trans (hname _))
  refine ⟨⟨front, found, rest, ht, hgetter, ?_⟩, fun front' getter rest' name ht' hgetter' => ?_⟩
  · rw [hspan, hm, Text.size_append]
  · rw [hspan, hm]
    exact hfirst front' getter rest' _ ht' (takes_getter.2 ⟨name, hgetter', rfl⟩)

/-- An object of words. -/
def wordsObject (list : Text) : Text := "\x7b\"words\":".toList ++ list ++ ['\x7d']

lemma compact_words (words : List String) :
    (Json.object [("words", .strings words)]).compact = wordsObject (Json.strings words).compact := by
  have hopen : "\x7b\"words\":".toList = '\x7b' :: (Json.quoted "words".toList ++ [':']) := by decide
  unfold wordsObject
  rw [hopen, Json.compact, Json.compactMembers]
  simp only [List.cons_append, List.append_assoc, List.nil_append]

/-- The object of the words, with another list. -/
def relist (object : Span) (list : Text) : Edit := ⟨object.start, object.stop, wordsObject list⟩

/-- The getter, without its lookup. -/
def dropLookup (getter : Span) (name holder : Text) : Edit :=
  ⟨getter.start, getter.stop, returning name (' ' :: holder ++ ".words".toList)⟩

lemma cases_of_planWords {es : List Edit} (h : planWords settings t = .ok es) : ∃ holder name object getter,
    WordsObject t holder object ∧ ReadsWords t holder name getter ∧
      es = [relist object (Json.strings settings.words.verbs).compact, dropLookup getter name holder] := by
  unfold planWords at h
  dsimp only at h
  split at h
  · cases h
  · obtain ⟨site, hsite, h⟩ := bind_eq_ok.1 h
    obtain ⟨holder, hholder, h⟩ := bind_eq_ok.1 h
    obtain ⟨getter, hgetter, h⟩ := bind_eq_ok.1 h
    obtain ⟨name, hname, h⟩ := bind_eq_ok.1 h
    obtain ⟨holder', object, rfl, hobject⟩ := exists_wordsObject hsite
    obtain rfl : holder' = holder := Option.some.inj (orSkip_eq_ok.1 hholder)
    obtain rfl := Except.ok.inj h
    refine ⟨holder', name, object, getter.span, hobject, readsWords_of_find hgetter hname, ?_⟩
    have hopen : "()\x7breturn ".toList = "()".toList ++ ("\x7breturn".toList ++ [' ']) := by decide
    have hclose : ".words\x7d".toList = ".words".toList ++ ['\x7d'] := by decide
    unfold dropLookup returning header
    simp only [relist, Edit.replace, compact_words, hopen, hclose, List.append_assoc, List.cons_append, List.nil_append]

/-- Where the writers of the words and of the phases succeed, they have replaced whole constructs and nothing else.
Of the words these are two, one after the other: the object that is assigned to a holder, and the first function that
falls back on the holder, which now returns the words of the holder. Of the phases it is one, the function around
them. The lists are read back as what is configured. -/
theorem rewrites_whole (settings : Settings) (r : Reporting) (t : Text) :
    (∀ done, (planWords settings t >>= r.apply t) = .ok done → ∃ holder name object getter list,
      WordsObject t holder object ∧ ReadsWords t holder name getter ∧
      ((relist object list).InTurn (dropLookup getter name holder) t done.text ∨
        (dropLookup getter name holder).InTurn (relist object list) t done.text) ∧
      Json.decode (.list .string) list.bytes = .ok settings.words.verbs) ∧
    ∀ done, (planPhases settings t >>= r.apply t) = .ok done → ∃ front name body rest a list,
      PhasesFunction t front name body rest a ∧ done.text = front ++ returning name list ++ rest ∧
      list = inAlphabetOf (header name ++ body) (Json.strings settings.spinner.phases).compact ∧
      Json.decode (.list .string) list.bytes = .ok settings.spinner.phases := by
  refine ⟨fun done h => ?_, fun done => planPhases_rewrites⟩
  obtain ⟨es, hplan, happly⟩ := bind_eq_ok.1 h
  obtain ⟨holder, name, object, getter, hobject, hgetter, rfl⟩ := cases_of_planWords hplan
  exact ⟨holder, name, object, getter, _, hobject, hgetter, Edit.inTurn_of_apply happly, Json.Read.decode_strings _⟩

/-- The getter of these words stands before their object. -/
def getterFirst : Text :=
  "function f()\x7breturn pZ(\"words\",kX).words\x7dvar a=1,kX=\x7bwords:[\"Actualizing\"]\x7d;".toList

def getterFirstRewritten : Text :=
  "function f()\x7breturn kX.words\x7dvar a=1,kX=\x7b\"words\":[\"C\\\"gitating\",\"Ébauchant\"]\x7d;".toList

/-- These phases stand in a function with an escape, after another list. -/
def twoLists : Text := "function sP()\x7bif(x)return[\"\\u2022\"];return[\"·\",\"✢\"]\x7dvar b;".toList

def twoListsRewritten : Text :=
  "function sP()\x7breturn[\"\\u25d0\",\"\\ud83d\\ude00\\\\\"]\x7dvar b;".toList

def shownWhileThinking : Settings :=
  { Settings.default with
    words := { ThinkingWords.default with verbs := ["C\"gitating", "Ébauchant"] }
    spinner := { Spinner.default with phases := ["◐", "😀\\"] } }

/-- The getter and the object are rewritten where the getter stands first, and the list in a function with an escape
is written in ASCII. -/
theorem rewrites_whole_getterFirst_and_twoLists :
    (planWords shownWhileThinking getterFirst >>= Reporting.apply ⟨false, false⟩ getterFirst) =
      .ok ⟨getterFirstRewritten, []⟩ ∧
    (∃ holder name object getter list, WordsObject getterFirst holder object ∧
      ReadsWords getterFirst holder name getter ∧
      ((relist object list).InTurn (dropLookup getter name holder) getterFirst getterFirstRewritten ∨
        (dropLookup getter name holder).InTurn (relist object list) getterFirst getterFirstRewritten) ∧
      Json.decode (.list .string) list.bytes = .ok ["C\"gitating", "Ébauchant"]) ∧
    (planPhases shownWhileThinking twoLists >>= Reporting.apply ⟨false, false⟩ twoLists) =
      .ok ⟨twoListsRewritten, []⟩ ∧
    ∃ front name body rest a list, PhasesFunction twoLists front name body rest a ∧
      twoListsRewritten = front ++ returning name list ++ rest ∧
      Json.decode (.list .string) list.bytes = .ok ["◐", "😀\\"] := by
  have hwords : (planWords shownWhileThinking getterFirst >>= Reporting.apply ⟨false, false⟩ getterFirst) =
      .ok ⟨getterFirstRewritten, []⟩ := by decide +kernel
  have hphases : (planPhases shownWhileThinking twoLists >>= Reporting.apply ⟨false, false⟩ twoLists) =
      .ok ⟨twoListsRewritten, []⟩ := by decide +kernel
  obtain ⟨front, name, body, rest, a, list, hfunction, htext, -, hlist⟩ :=
    (rewrites_whole shownWhileThinking ⟨false, false⟩ twoLists).2 _ hphases
  exact ⟨hwords, (rewrites_whole shownWhileThinking ⟨false, false⟩ getterFirst).1 _ hwords, hphases,
    front, name, body, rest, a, list, hfunction, htext, hlist⟩

end Retouch.Writer.Thinking
