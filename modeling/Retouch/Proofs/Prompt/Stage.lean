import Retouch.Proofs.Writer.Plans

/-! The prompt stage. Whatever the text and the prompts, it ends with an outcome for each prompt in
the order of the prompts, and no prompt is skipped for a bad span: what is written lies where the prompt
was found. -/
namespace Retouch

open Attempt

/-! ## Stages -/

/-- A stage brings things into a text one after the other, and tells what came of each. -/
structure Stage {α ω : Type} (name : α → String) (bring : Text → α → Except Fault (Retouched × ω))
    (run : Text → List α → Except Fault (Retouched × List (String × ω))) : Prop where
  nil (t : Text) : run t [] = .ok (⟨t, []⟩, [])
  cons (t : Text) (a : α) (as : List α) : run t (a :: as) = do
    let (first, outcome) ← bring t a
    let (last, outcomes) ← run first.text as
    return (⟨last.text, first.messages ++ last.messages⟩, (name a, outcome) :: outcomes)

namespace Stage

variable {α ω : Type} {name : α → String} {bring : Text → α → Except Fault (Retouched × ω)}
  {run : Text → List α → Except Fault (Retouched × List (String × ω))} (h : Stage name bring run)
include h

lemma cons_eq_ok {t : Text} {a : α} {as : List α} {done : Retouched} {outcomes : List (String × ω)} :
    run t (a :: as) = .ok (done, outcomes) ↔ ∃ first outcome last rest,
      bring t a = .ok (first, outcome) ∧ run first.text as = .ok (last, rest) ∧
        done = ⟨last.text, first.messages ++ last.messages⟩ ∧ outcomes = (name a, outcome) :: rest := by
  rw [h.cons]
  constructor
  · intro h
    obtain ⟨⟨first, outcome⟩, hfirst, h⟩ := bind_eq_ok.1 h
    obtain ⟨⟨last, rest⟩, hlast, h⟩ := bind_eq_ok.1 h
    cases h
    exact ⟨first, outcome, last, rest, hfirst, hlast, rfl, rfl⟩
  · rintro ⟨first, outcome, last, rest, hfirst, hlast, rfl, rfl⟩
    simp only [hfirst, hlast, bind, Except.bind, pure, Except.pure]

/-- A stage ends if each of its steps does, with an outcome for each of them in order. -/
lemma exists_ok {as : List α} {P : String → ω → Prop}
    (hsteps : ∀ a ∈ as, ∀ t, ∃ done outcome, bring t a = .ok (done, outcome) ∧ P (name a) outcome) (t : Text) :
    ∃ done outcomes, run t as = .ok (done, outcomes) ∧ outcomes.map (·.1) = as.map name ∧
      ∀ o ∈ outcomes, P o.1 o.2 := by
  induction as generalizing t with
  | nil => exact ⟨⟨t, []⟩, [], h.nil t, rfl, nofun⟩
  | cons a as ih =>
    obtain ⟨hstep, hsteps⟩ := List.forall_mem_cons.1 hsteps
    obtain ⟨first, outcome, hfirst, houtcome⟩ := hstep t
    obtain ⟨last, rest, hlast, hnames, hrest⟩ := ih hsteps first.text
    refine ⟨_, _, h.cons_eq_ok.2 ⟨first, outcome, last, rest, hfirst, hlast, rfl, rfl⟩, ?_, ?_⟩
    · rw [List.map_cons, hnames, List.map_cons]
    · exact List.forall_mem_cons.2 ⟨houtcome, hrest⟩

end Stage

namespace Literal

lemma yields_renderSegment (content : Text) (style : Style) (identifiers : Identifiers) (s : Segment) :
    (renderSegment content style identifiers s).Yields fun _ => True := by
  cases s with
  | text piece => trivial
  | hole expr offset =>
    unfold renderSegment
    dsimp only
    split
    · trivial
    · split
      · exact yields_skip nofun
      · trivial

lemma yields_render (content : Text) (style : Style) (identifiers : Identifiers) (escaped : Bool) :
    (render content style identifiers escaped).Yields fun _ => True := by
  have hsplit : (Segment.split content).Yields fun _ => True := by
    unfold Segment.split
    split
    · trivial
    · exact yields_skip nofun
  refine hsplit.bind fun segments _ => ?_
  exact (yields_mapM fun s _ => yields_renderSegment content style identifiers s).bind fun _ _ => trivial

end Literal

namespace Prompt

variable {t : Text}

lemma yields_locate (p : Prompt) (t : Text) : (p.locate t).Yields fun found => found.1.LiesIn t := by
  refine (yields_findSomeM? fun m hm => ?_).bind fun o ho => yields_orSkip ho nofun
  have hm := Pattern.standsIn_of_mem_matchesIn hm
  refine Yields.bind (P := fun _ => True) ?_ fun bound? _ found hfound => ?_
  · refine (yields_mapM (Q := fun _ => True) fun s hs => ?_).bind fun _ _ => trivial
    exact (yields_demand_of_isSome (hm.capture_liesIn hs)).mono fun _ _ => trivial
  · obtain ⟨bound, -, rfl⟩ := Option.map_eq_some_iff.1 hfound
    exact hm.span_liesIn

lemma yields_edit? (p : Prompt) {span : Span} (h : span.LiesIn t) (identifiers : Literal.Identifiers) :
    (p.edit? t span identifiers).Yields fun o => ∀ e, o = some e → Edit.IsOne t [e] := by
  refine (yields_demand_of_isSome h).bind fun region _ => ?_
  refine (Literal.yields_render _ _ _ _).bind fun rendered _ e he => ?_
  split at he
  · cases he
  · cases he
    exact Edit.isOne_of_liesIn h rendered

lemma ofSkip_ne {reason : Skip} (h : ∀ start stop, reason ≠ .badSpan start stop) (start stop : Nat) :
    Outcome.ofSkip reason ≠ .skipped (.badSpan start stop) := by
  cases reason <;> simp_all [Outcome.ofSkip]

/-- Bringing a prompt into a text always ends. -/
theorem exists_apply (r : Reporting) (t : Text) (p : Prompt) : ∃ done outcome,
    p.apply r t = .ok (done, outcome) ∧ ∀ start stop, outcome ≠ .skipped (.badSpan start stop) := by
  obtain ⟨⟨span, identifiers⟩, hlocate, hspan⟩ | ⟨reason, hlocate, hreason⟩ := (p.yields_locate t).settle
  · obtain ⟨o, hedit, ho⟩ | ⟨reason, hedit, hreason⟩ := (p.yields_edit? hspan identifiers).settle
    · cases o with
      | none =>
        refine ⟨⟨t, r.prose p.id p.reference p.content⟩, .unchanged, ?_, nofun⟩
        simp only [apply, hlocate, hedit, bind, Except.bind, pure, Except.pure]
      | some e =>
        obtain ⟨done, hdone⟩ := (ho e rfl).exists_apply r
        refine ⟨⟨done.text, r.prose p.id p.reference p.content ++ done.messages⟩, .applied, ?_, nofun⟩
        simp only [apply, hlocate, hedit, hdone, settle_ok, bind, Except.bind, pure, Except.pure]
    · refine ⟨⟨t, r.prose p.id p.reference p.content⟩, .ofSkip reason, ?_, ofSkip_ne hreason⟩
      simp only [apply, hlocate, hedit, bind, Except.bind, pure, Except.pure]
  · refine ⟨⟨t, []⟩, .ofSkip reason, ?_, ofSkip_ne hreason⟩
    simp only [apply, hlocate, bind, Except.bind, pure, Except.pure]

lemma isStage (r : Reporting) : Stage (·.id) (apply r) (applyAll r) where
  nil _ := rfl
  cons _ _ _ := rfl

/-- The prompt stage always ends, with an outcome for each prompt in order. -/
theorem exists_applyAll (r : Reporting) (t : Text) (ps : List Prompt) : ∃ done outcomes,
    applyAll r t ps = .ok (done, outcomes) ∧ outcomes.map (·.1) = ps.map (·.id) ∧
      ∀ id start stop, (id, .skipped (.badSpan start stop)) ∉ outcomes := by
  obtain ⟨done, outcomes, hrun, hids, hnone⟩ := (isStage r).exists_ok
    (P := fun _ outcome => ∀ start stop, outcome ≠ .skipped (.badSpan start stop))
    (fun p (_ : p ∈ ps) t => exists_apply r t p) t
  exact ⟨done, outcomes, hrun, hids, fun id start stop hmem => hnone _ hmem start stop rfl⟩

end Prompt
end Retouch
