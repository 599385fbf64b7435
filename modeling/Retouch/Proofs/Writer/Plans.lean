import Retouch.Proofs.Edit.Splice
import Retouch.Proofs.Pattern.Site
import Retouch.Proofs.Scan.Bracket
import Retouch.Writer.Catalog

/-! What writers plan. No plan asks for text that is not there, and none is given up for a bad span.
Most writers plan one edit, and it lies in the text: its ends come from matches, from captures, from
bytes that are characters of their own, or from what a pattern is known to hold between them. -/
namespace Retouch

open Attempt

variable {t : Text}

lemma Text.add_size_of_slice? {t m : Text} {start stop : Nat} (h : t.slice? start stop = some m) :
    start + m.size = stop := by
  obtain ⟨a, b, -, rfl, hstop⟩ := slice?_eq_some.1 h
  exact hstop

namespace Edit

/-- There is one edit, and it lies in the text. -/
def IsOne (t : Text) (es : List Edit) : Prop := ∃ e, es = [e] ∧ e.LiesIn t

lemma isOne_of_liesIn {start stop : Nat} (h : Span.LiesIn ⟨start, stop⟩ t) (content : Text) :
    IsOne t [⟨start, stop, content⟩] := ⟨_, rfl, fits_iff.1 h⟩

/-- An edit that lies in the text can be applied on its own. -/
lemma IsOne.exists_apply {es : List Edit} (h : IsOne t es) (r : Reporting) :
    ∃ done, r.apply t es = .ok done := by
  obtain ⟨e, rfl, he⟩ := h
  refine exists_apply_iff.2 ⟨by simpa using he, ?_⟩
  simp [ascending]

lemma isOne_insert {place : Nat} (h : t.isBoundary place) (content : Text) :
    IsOne t [.insert place content] :=
  isOne_of_liesIn (Span.liesIn_iff.2 ⟨Nat.le_refl _, h, h⟩) content

lemma isOne_replace {site : Site} (h : site.span.LiesIn t) (content : Text) :
    IsOne t [.replace site content] := isOne_of_liesIn h content

end Edit

namespace Scan

lemma yields_byteBefore? {place : Nat} (h : place ≤ t.size) :
    (byteBefore? t place).Yields fun _ => True := by
  unfold byteBefore?
  refine yields_ite (fun _ => trivial) fun hpos => ?_
  have hlt : place - 1 < t.bytes.length := by
    rw [Text.length_bytes]
    omega
  exact (yields_demand ⟨_, List.getElem?_eq_getElem hlt, trivial⟩).bind (P := fun _ => True)
    fun _ _ => trivial

lemma yields_lastByte? {place lookback : Nat} {b : UInt8} (h : place ≤ t.size) :
    (lastByte? t place b lookback).Yields fun _ => True := by
  rw [lastByte?, if_pos h]
  trivial

lemma yields_nameBefore? {stop : Nat} (h : stop ≤ t.size) :
    (nameBefore? t stop).Yields fun _ => True := by
  rw [nameBefore?, if_pos h]
  trivial

end Scan

namespace Writer

lemma yields_require (isAsked : Bool) : (require isAsked).Yields fun _ => True :=
  yields_ite (fun _ => trivial) fun _ => yields_skip nofun

lemma yields_last? {p : Pattern} {a : Anchored} (h : p.StandsIn t a.found)
    (hp : ∀ covered spans, p.Covers covered spans → covered ≠ []) :
    (demand a.found.span.last?).Yields fun _ => True := by
  obtain ⟨front, covered, rest, spans, -, hcovers, hm⟩ := h
  have hsize := mt Text.size_eq_zero.1 (hp covered spans hcovers)
  rw [hm, Span.last?, if_pos (Nat.lt_add_of_pos_right (Nat.pos_of_ne_zero hsize))]
  trivial

/-! ## Themes -/

namespace Palette

lemma yields_switchSite (t : Text) : (switchSite t).Yields fun _ => True := by
  refine (Site.yields_find t _ _).bind fun head hhead => ?_
  refine (Site.yields_text hhead.2).bind fun text _ => ?_
  refine Yields.bind (yields_orSkip_true nofun) fun brace _ => ?_
  refine Yields.bind (yields_orSkip_true nofun) fun stop _ => ?_
  exact yields_orSkip_true nofun

lemma yields_pickerSite (t : Text) : (pickerSite t).Yields fun _ => True := by
  refine Yields.bind (yields_orSkip (fun place => Text.standsAt_of_find?) nofun) fun place hplace => ?_
  refine (Scan.yields_lastByte? hplace.le_size).bind fun found _ => ?_
  refine Yields.bind (yields_orSkip_true nofun) fun start _ => ?_
  refine Yields.bind (yields_orSkip_true nofun) fun stop _ => ?_
  exact yields_orSkip_true nofun

lemma yields_namesSite (t : Text) : (namesSite t).Yields fun _ => True := by
  have haround : ∀ place ∈ t.occurrences darkName,
      (namesAround? t place).Yields fun o => ∀ span, o = some span → True := by
    intro place hplace
    refine (Scan.yields_byteBefore? (Text.standsAt_of_mem_occurrences hplace).le_size).bind ?_
    exact fun before _ => fun _ _ => trivial
  refine (yields_findSomeM? haround).bind fun found _ => ?_
  refine Yields.bind (yields_orSkip_true nofun) fun span _ => ?_
  exact yields_orSkip_true nofun

lemma yields_plan (settings : Settings) (t : Text) : (plan settings t).Yields fun _ => True := by
  refine (yields_require _).bind fun _ _ => ?_
  refine (yields_switchSite t).bind fun switch _ => ?_
  refine (yields_pickerSite t).bind fun picker _ => ?_
  refine (yields_namesSite t).bind fun names _ => ?_
  exact (Site.yields_name _ _ _).bind fun _ _ => trivial

end Palette

/-! ## What is shown while the model thinks -/

namespace Thinking

lemma yields_wordsAt? {assign : Nat} (h : assign ≤ t.size) :
    (wordsAt? t assign).Yields fun o => ∀ site, o = some site → site.span.LiesIn t := by
  refine (Scan.yields_nameBefore? h).bind fun holder? _ => ?_
  cases holder? with
  | none => nofun
  | some found =>
    refine Yields.bind (yields_orSkip_true nofun) fun stop _ => ?_
    refine Yields.bind (yields_orSkip (fun site hsite => (Site.of?_eq_some hsite).2) nofun) ?_
    intro site hsite _ heq
    cases heq
    exact hsite

lemma yields_wordsSite (t : Text) : (wordsSite t).Yields fun site => site.span.LiesIn t := by
  refine (yields_findSomeM? fun assign hassign => ?_).bind fun o ho => yields_orSkip ho nofun
  exact yields_wordsAt? (Text.standsAt_of_mem_occurrences hassign).le_size

lemma yields_planWords (settings : Settings) (t : Text) :
    (planWords settings t).Yields fun _ => True := by
  unfold planWords
  refine yields_unless nofun fun _ => ?_
  refine (yields_wordsSite t).bind fun site _ => ?_
  refine (Site.yields_name _ _ _).bind fun holder _ => ?_
  refine (Site.yields_find t _ _).bind fun getter _ => ?_
  exact (Site.yields_name _ _ _).bind fun name _ => trivial

lemma yields_planTemplate (settings : Settings) (t : Text) :
    (planTemplate settings t).Yields (Edit.IsOne t) := by
  refine Yields.bind (yields_orSkip_true nofun) fun around _ => ?_
  refine (Site.yields_find t _ _).bind fun site hsite => ?_
  refine (Site.yields_name _ _ _).bind fun word _ => ?_
  exact (Site.yields_text hsite.2).bind fun _ _ => Edit.isOne_replace hsite.2 _

lemma yields_phasesSite (t : Text) : (phasesSite t).Yields fun site => site.span.LiesIn t := by
  have hplain : ∀ covered spans, plainFunction.Covers covered spans → covered ≠ [] := by
    rintro covered spans ⟨m₁, m₂, spans₁, spans₂, ⟨rfl, -⟩, -, rfl, -⟩
    simp
  refine (Anchored.yields_find t _ _ _ _).bind fun header hheader => ?_
  refine (Anchored.yields_capture hheader.found).bind fun name _ => ?_
  refine (yields_last? hheader.found hplain).bind fun brace _ => ?_
  refine Yields.bind (yields_orSkip_true nofun) fun stop _ => ?_
  exact yields_orSkip (fun site hsite => (Site.of?_eq_some hsite).2) nofun

lemma yields_planPhases (settings : Settings) (t : Text) :
    (planPhases settings t).Yields (Edit.IsOne t) := by
  unfold planPhases
  refine yields_unless nofun fun _ => ?_
  refine (yields_phasesSite t).bind fun site hsite => ?_
  refine (Site.yields_name _ _ _).bind fun name _ => ?_
  exact (Site.yields_text hsite).bind fun _ _ => Edit.isOne_replace hsite _

lemma yields_planOneWay (settings : Settings) (t : Text) :
    (planOneWay settings t).Yields (Edit.IsOne t) := by
  have htwo : backAndForth.IsUniform := by repeat' constructor
  refine (yields_require _).bind fun _ _ => ?_
  refine (Site.yields_findTwin t _ htwo (Nat.le_refl 2)).bind fun site hsite => ?_
  exact (Site.yields_name _ _ _).bind fun _ _ => Edit.isOne_replace hsite.2 _

lemma yields_planPeriod (settings : Settings) (t : Text) :
    (planPeriod settings t).Yields (Edit.IsOne t) := by
  unfold planPeriod
  refine yields_unless nofun fun _ => ?_
  refine (Anchored.yields_find t _ _ _ _).bind fun found hfound => ?_
  exact (Anchored.yields_captureSpan hfound.found).bind fun digits hdigits =>
    Edit.isOne_of_liesIn hdigits.2 _

end Thinking

/-! ## The user's side of the conversation -/

namespace Conversation

lemma yields_boxed (look : MessageLook) (t library element : Text) :
    (boxed look t library element).Yields fun _ => True := by
  refine yields_ite (fun _ => trivial) fun _ => ?_
  refine (Anchored.yields_find t _ _ _ _).bind fun row hrow => ?_
  exact (Anchored.yields_capture hrow.found).bind fun _ _ => trivial

lemma yields_planMessage (settings : Settings) (t : Text) :
    (planMessage settings t).Yields (Edit.IsOne t) := by
  refine Yields.bind (yields_orSkip_true nofun) fun around _ => ?_
  refine (Anchored.yields_find t _ _ _ _).bind fun found hfound => ?_
  refine (Anchored.yields_capture hfound.found).bind fun library _ => ?_
  refine (Anchored.yields_capture hfound.found).bind fun component _ => ?_
  refine (Anchored.yields_capture hfound.found).bind fun present _ => ?_
  refine (Anchored.yields_capture hfound.found).bind fun message _ => ?_
  refine (yields_boxed _ _ _ _).bind fun element _ => ?_
  refine (yields_demand_of_isSome hfound.found.span_liesIn).bind fun _ _ => ?_
  exact Edit.isOne_of_liesIn hfound.found.span_liesIn _

lemma yields_planBorder (settings : Settings) (t : Text) :
    (planBorder settings t).Yields (Edit.IsOne t) := by
  refine (yields_require _).bind fun _ _ => ?_
  refine (Anchored.yields_find t _ _ _ _).bind fun found hfound => ?_
  exact (Anchored.yields_captureSpan hfound.found).bind fun value hvalue =>
    Edit.isOne_of_liesIn hvalue.2 _

end Conversation

/-! ## What the bundle does on its own -/

namespace Behavior

lemma yields_bodyBefore? {stop : Nat} (h : t.isBoundary stop) :
    (bodyBefore? t stop).Yields fun o => ∀ start, o = some start → t.isBoundary start := by
  have hlow : t.boundaryBefore (stop - sizeReach) ≤ stop :=
    Nat.le_trans (Text.boundaryBefore_le _ _) (Nat.sub_le _ _)
  have hwindow : (t.slice? (t.boundaryBefore (stop - sizeReach)) stop).isSome :=
    Text.isSome_slice?_iff.2 ⟨hlow, Text.isBoundary_boundaryBefore _ _, h⟩
  refine (yields_demand_of_isSome hwindow).bind fun window hwindow => ?_
  split
  · nofun
  · next head hhead =>
    have hstands := Pattern.standsIn_of_mem_matchesIn (List.mem_of_getLast? hhead)
    have hend := (Span.liesIn_iff.1 hstands.span_liesIn).2.2
    have hstart := Text.isBoundary_of_slice? hwindow hend
    have hle := Text.le_size_of_isBoundary hend
    have hsize := Text.add_size_of_slice? hwindow
    refine (yields_demand_of_isSome (Text.isSome_slice?_iff.2 ⟨by omega, hstart, h⟩)).bind ?_
    intro between _ start hsome
    split at hsome
    · cases hsome
    · cases hsome
      exact hstart

lemma yields_sizeBody? (t : Text) :
    (sizeBody? t).Yields fun o => ∀ start, o = some start → t.isBoundary start :=
  yields_findSomeM? fun _ hplace =>
    yields_bodyBefore? (Text.standsAt_of_mem_occurrences hplace).isBoundary

lemma yields_planContextSize (settings : Settings) (t : Text) :
    (planContextSize settings t).Yields (Edit.IsOne t) := by
  refine (yields_require _).bind fun _ _ => ?_
  refine yields_unless nofun fun _ => ?_
  refine (yields_sizeBody? t).bind fun o ho => ?_
  exact Yields.bind (yields_orSkip ho nofun) fun start hstart => Edit.isOne_insert hstart _

lemma yields_planVerbosity (settings : Settings) (t : Text) :
    (planVerbosity settings t).Yields (Edit.IsOne t) := by
  refine (yields_require _).bind fun _ _ => ?_
  refine (Site.yields_find t _ _).bind fun site hsite => ?_
  obtain ⟨⟨m, ⟨front, covered, rest, spans, rfl, hcovers, rfl⟩, hspan⟩, -⟩ := hsite
  obtain ⟨m₁, value, spans₁, spans₂, ⟨rfl, -⟩, -, rfl, -⟩ := hcovers
  refine Edit.isOne_of_liesIn (Option.isSome_iff_exists.2 ⟨value, ?_⟩) _
  have hslice := Text.slice?_append (front ++ verboseKey) value rest
  rw [hspan]
  simpa [Nat.add_assoc] using hslice

lemma yields_planLimitCommand (settings : Settings) (t : Text) :
    (planLimitCommand settings t).Yields (Edit.IsOne t) := by
  refine (yields_require _).bind fun _ _ => ?_
  refine (Anchored.yields_find t _ _ _ _).bind fun found hfound => ?_
  refine Yields.bind (yields_orSkip (fun stop => Option.filter_eq_some_iff.1) nofun) fun stop hstop => ?_
  refine Edit.isOne_of_liesIn (Span.liesIn_iff.2 ⟨?_, ?_, ?_⟩) _
  · exact Nat.le_of_lt (of_decide_eq_true hstop.2)
  · exact (Span.liesIn_iff.1 hfound.found.span_liesIn).2.2
  · exact Scan.isBoundary_of_expressionEnd? hstop.1

lemma yields_planGreeting (settings : Settings) (t : Text) :
    (planGreeting settings t).Yields (Edit.IsOne t) := by
  refine (yields_require _).bind fun _ _ => ?_
  refine (Anchored.yields_find t _ _ _ _).bind fun found hfound => ?_
  refine yields_unless nofun fun _ => ?_
  exact Edit.isOne_insert (Span.liesIn_iff.1 hfound.found.span_liesIn).2.2 _

lemma yields_planWaiting (settings : Settings) (t : Text) :
    (planWaiting settings t).Yields (Edit.IsOne t) := by
  refine (yields_require _).bind fun _ _ => ?_
  exact (Site.yields_find t _ _).bind fun site hsite => Edit.isOne_replace hsite.2 _

end Behavior

/-! ## What agents work with -/

namespace Agents

lemma yields_chosenTools (settings : Settings) : (chosenTools settings).Yields fun _ => True := by
  refine Yields.bind (yields_orSkip_true nofun) fun selected _ => ?_
  refine Yields.bind (yields_orSkip_true nofun) fun toolset _ => ?_
  exact (yields_require _).bind fun _ _ => trivial

/-- What follows the second identifier of a filter is the call, and a parenthesis. -/
lemma isBoundary_after_call {m : Match} {receiver : Span} (h : toolFilter.StandsIn t m)
    (hreceiver : m.captures[1]? = some receiver) :
    t.isBoundary (receiver.stop + enabledCall.size) := by
  obtain ⟨front, covered, rest, spans, rfl, hcovers, rfl⟩ := h
  obtain ⟨_, _, _, _, ⟨rfl, rfl⟩, ⟨opening, _, _, _, ⟨-, -, rfl⟩, ⟨bound, _, _, _, ⟨_, ⟨-, -, rfl⟩, rfl⟩,
    ⟨closing, _, _, _, ⟨-, -, rfl⟩, ⟨_, _, _, _, ⟨rfl, rfl⟩, ⟨used, _, _, _, ⟨_, ⟨-, -, rfl⟩, rfl⟩,
    ⟨rfl, rfl⟩, rfl, rfl⟩, rfl, rfl⟩, rfl, rfl⟩, rfl, rfl⟩, rfl, rfl⟩, rfl, rfl⟩ := hcovers
  have hstop : receiver.stop =
      Text.size (front ++ (".filter(".toList ++ (opening ++ (bound ++ (closing ++ ("=>".toList ++ used)))))) := by
    simp only [List.nil_append, List.map_nil, List.append_nil, List.map_cons, List.cons_append,
      Span.shift, List.getElem?_cons_succ, List.getElem?_cons_zero, Option.some.injEq] at hreceiver
    simp only [← hreceiver, Text.size_append]
  have hend : Text.size (front ++ (".filter(".toList ++ (opening ++ (bound ++ (closing ++
      ("=>".toList ++ used)))))) + enabledCall.size =
      Text.size (front ++ (".filter(".toList ++ (opening ++ (bound ++ (closing ++ ("=>".toList ++
        (used ++ enabledCall))))))) := by
    simp only [Text.size_append, Nat.add_assoc]
  have hcall : ".isEnabled())".toList = enabledCall ++ [')'] := rfl
  rw [hstop, hend, hcall]
  refine Text.isBoundary_iff.2 ⟨_, ')' :: rest, ?_, rfl⟩
  simp only [List.append_assoc, List.singleton_append]

lemma yields_planTools (settings : Settings) (t : Text) :
    (planTools settings t).Yields (Edit.IsOne t) := by
  refine (yields_chosenTools settings).bind fun tools _ => ?_
  refine (Anchored.yields_find t _ _ _ _).bind fun found hfound => ?_
  refine (Anchored.yields_capture hfound.found).bind fun param _ => ?_
  refine (Anchored.yields_captureSpan hfound.found).bind fun receiver hreceiver => ?_
  refine (yields_demand_of_isSome hreceiver.2).bind fun text _ => ?_
  refine yields_unless nofun fun _ => ?_
  refine Edit.isOne_insert ?_ _
  exact isBoundary_after_call hfound.found hreceiver.1

lemma yields_modelEdit? (t : Text) (agent model : String) :
    (modelEdit? t agent model).Yields fun _ => True := by
  unfold modelEdit?
  dsimp only
  split
  · trivial
  · next typeStart start stop hplace =>
    obtain ⟨found, hfound, hplace⟩ := Option.bind_eq_some_iff.1 hplace
    obtain ⟨start', -, hplace⟩ := Option.bind_eq_some_iff.1 hplace
    obtain ⟨stop', hstop, hplace⟩ := Option.bind_eq_some_iff.1 hplace
    cases hplace
    have hencloses := Scan.encloses_of_balancedEnd? rfl rfl (Option.filter_eq_some_iff.1 hstop).1
    refine (yields_demand_of_isSome (Text.isSome_slice?_iff.2
      ⟨hencloses.le, hencloses.inside, hencloses.closer⟩)).bind fun body _ => ?_
    split
    · trivial
    · have hcut := (Text.standsAt_of_find? hfound).isBoundary_stop
      exact (yields_demand_of_isSome hcut).bind fun _ _ => trivial

lemma yields_planModels (settings : Settings) (t : Text) :
    (planModels settings t).Yields fun _ => True := by
  refine (yields_require _).bind fun _ _ => ?_
  refine (yields_mapM (Q := fun _ => True) fun assignment _ => ?_).bind fun edits _ => ?_
  · exact yields_modelEdit? t assignment.1 assignment.2
  · exact yields_unless nofun fun _ => trivial

lemma yields_planPicker (settings : Settings) (t : Text) :
    (planPicker settings t).Yields (Edit.IsOne t) := by
  have hlist : ∀ covered spans, assignedList.Covers covered spans → covered ≠ [] := by
    rintro covered spans ⟨m₁, m₂, spans₁, spans₂, -, ⟨rfl, -⟩, rfl, -⟩
    simp
  refine (yields_require _).bind fun _ _ => ?_
  refine (Anchored.yields_find t _ _ _ _).bind fun found hfound => ?_
  refine (Anchored.yields_capture hfound.found).bind fun list _ => ?_
  refine (yields_last? hfound.found hlist).bind fun bracket _ => ?_
  refine Yields.bind (yields_orSkip_true nofun) fun stop _ => ?_
  refine yields_unless nofun fun hbyte => ?_
  exact Edit.isOne_insert (Text.isBoundary_of_getElem? (not_not.1 hbyte) (by decide)).2 _

end Agents

/-- The writers that plan several edits. -/
def severalEdits : List String := ["themes", "thinking-verbs", "subagent-models"]

/-- Every plan goes well, and all but three consist of one edit that lies in the text. -/
theorem yields_plan {w : Writer} (hw : w ∈ all) (settings : Settings) (t : Text) :
    (w.plan settings t).Yields fun es => w.id ∈ severalEdits ∨ Edit.IsOne t es := by
  have hseveral {x : Attempt (List Edit)} {id : String} (hid : id ∈ severalEdits)
      (h : x.Yields fun _ => True) : x.Yields fun es => id ∈ severalEdits ∨ Edit.IsOne t es :=
    h.mono fun _ _ => .inl hid
  have hone {x : Attempt (List Edit)} {id : String} (h : x.Yields (Edit.IsOne t)) :
      x.Yields fun es => id ∈ severalEdits ∨ Edit.IsOne t es := h.mono fun _ => .inr
  simp only [all, List.mem_cons, List.not_mem_nil, or_false] at hw
  rcases hw with rfl | rfl | rfl | rfl | rfl | rfl | rfl | rfl | rfl | rfl | rfl | rfl | rfl | rfl |
    rfl | rfl
  · exact hseveral (by decide) (Palette.yields_plan settings t)
  · exact hseveral (by decide) (Thinking.yields_planWords settings t)
  · exact hone (Thinking.yields_planTemplate settings t)
  · exact hone (Thinking.yields_planPhases settings t)
  · exact hone (Thinking.yields_planOneWay settings t)
  · exact hone (Thinking.yields_planPeriod settings t)
  · exact hone (Conversation.yields_planMessage settings t)
  · exact hone (Conversation.yields_planBorder settings t)
  · exact hone (Behavior.yields_planContextSize settings t)
  · exact hone (Behavior.yields_planVerbosity settings t)
  · exact hone (Behavior.yields_planLimitCommand settings t)
  · exact hone (Behavior.yields_planGreeting settings t)
  · exact hone (Behavior.yields_planWaiting settings t)
  · exact hone (Agents.yields_planTools settings t)
  · exact hseveral (by decide) (Agents.yields_planModels settings t)
  · exact hone (Agents.yields_planPicker settings t)

end Writer
end Retouch
