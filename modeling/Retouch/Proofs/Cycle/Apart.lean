import Mathlib.Data.List.Nodup
import Retouch.Proofs.Cycle.Total

/-! What is skipped leaves everything else alone. Each writer reads settings of its own, and one that is
skipped hands on the text as it was; so settings that nothing is made of change nothing for the others.
A prompt that is not written hands on the text as it was, too, and might as well not be there. -/
namespace Retouch

/-- Two settings differ in nothing but what the writer of a given name reads. -/
structure Settings.SameBut (id : String) (s s' : Settings) : Prop where
  themes : id ≠ "themes" → s.themes = s'.themes
  verbs : id ≠ "thinking-verbs" → s.words.verbs = s'.words.verbs
  wordFormat : id ≠ "thinking-verb-format" → s.words.format = s'.words.format
  phases : id ≠ "spinner-phases" → s.spinner.phases = s'.spinner.phases
  reversedCopy : id ≠ "spinner-mirror" → s.spinner.reversedCopy = s'.spinner.reversedCopy
  period : id ≠ "spinner-interval" → s.spinner.period = s'.spinner.period
  message : id ≠ "user-message-display" → s.message = s'.message
  input : id ≠ "input-box-border" → s.input = s'.input
  contextOverride : id ≠ "context-limit" → s.extras.contextOverride = s'.extras.contextOverride
  contextVariable : id ≠ "context-limit" → s.extras.contextVariable = s'.extras.contextVariable
  alwaysVerbose : id ≠ "verbose" → s.extras.alwaysVerbose = s'.extras.alwaysVerbose
  noLimitOptions : id ≠ "rate-limit-options" → s.extras.noLimitOptions = s'.extras.noLimitOptions
  noGreeting : id ≠ "startup-banner" → s.extras.noGreeting = s'.extras.noGreeting
  noBusyWait : id ≠ "freeze-prevention" → s.extras.noBusyWait = s'.extras.noBusyWait
  toolsets : id ≠ "toolsets" → s.toolsets = s'.toolsets
  defaultToolset : id ≠ "toolsets" → s.defaultToolset = s'.defaultToolset
  agentModels : id ≠ "subagent-models" → s.agentModels = s'.agentModels
  pickerModels : id ≠ "custom-models" → s.pickerModels = s'.pickerModels

namespace Writer

variable {c c' : Cycle} {release : Option Release} {t : Text} {id : String}

/-- A writer reads no settings but its own. -/
theorem plan_congr {w : Writer} (hw : w ∈ all) {s s' : Settings} (h : s.SameBut id s')
    (hid : id ≠ w.id) (t : Text) : w.plan s t = w.plan s' t := by
  simp only [all, List.mem_cons, List.not_mem_nil, or_false] at hw
  rcases hw with rfl | rfl | rfl | rfl | rfl | rfl | rfl | rfl | rfl | rfl | rfl | rfl | rfl | rfl |
    rfl | rfl
  · simp only [Palette.plan, h.themes hid]
  · simp only [Thinking.planWords, h.verbs hid]
  · simp only [Thinking.planTemplate, h.wordFormat hid]
  · simp only [Thinking.planPhases, h.phases hid]
  · simp only [Thinking.planOneWay, h.reversedCopy hid]
  · simp only [Thinking.planPeriod, h.period hid]
  · simp only [Conversation.planMessage, h.message hid]
  · simp only [Conversation.planBorder, h.input hid]
  · simp only [Behavior.planContextSize, h.contextOverride hid, h.contextVariable hid]
  · simp only [Behavior.planVerbosity, h.alwaysVerbose hid]
  · simp only [Behavior.planLimitCommand, h.noLimitOptions hid]
  · simp only [Behavior.planGreeting, h.noGreeting hid]
  · simp only [Behavior.planWaiting, h.noBusyWait hid]
  · simp only [Agents.planTools, Agents.chosenTools, h.toolsets hid, h.defaultToolset hid]
  · simp only [Agents.planModels, h.agentModels hid]
  · simp only [Agents.planPicker, h.pickerModels hid]

lemma apply_congr {w : Writer} (hw : w ∈ all) (hreporting : c.reporting = c'.reporting)
    (h : c.settings.SameBut id c'.settings) (hid : id ≠ w.id) :
    w.apply c release t = w.apply c' release t := by
  simp only [apply, run, plan_congr hw h hid, hreporting]

/-- A writer that is skipped does nothing and says nothing. -/
lemma eq_of_apply_skipped {w : Writer} {done : Retouched} {reason : Skip}
    (h : w.apply c release t = .ok (done, .skipped reason)) : done = ⟨t, []⟩ := by
  obtain ⟨settled, -, h⟩ := Attempt.bind_eq_ok.1 h
  cases settled with
  | ok done => cases h
  | error reason => cases h; rfl

/-- Settings of a writer that is skipped with either of them do not matter to the others. -/
lemma applyAll_congr {ws : List Writer} (hws : ws ⊆ all) {done done' : Retouched}
    {outcomes outcomes' : List (String × WriterOutcome)}
    (hrun : applyAll c release t ws = .ok (done, outcomes))
    (hrun' : applyAll c' release t ws = .ok (done', outcomes'))
    (hreporting : c.reporting = c'.reporting) (h : c.settings.SameBut id c'.settings)
    (hskipped : (id, .applied) ∉ outcomes) (hskipped' : (id, .applied) ∉ outcomes') :
    done' = done ∧ outcomes'.filter (·.1 ≠ id) = outcomes.filter (·.1 ≠ id) := by
  induction ws generalizing t done done' outcomes outcomes' with
  | nil =>
    cases hrun
    cases hrun'
    exact ⟨rfl, rfl⟩
  | cons w ws ih =>
    obtain ⟨hw, hws⟩ := List.cons_subset.1 hws
    obtain ⟨first, outcome, last, rest, hfirst, hlast, rfl, rfl⟩ := (isStage c release).cons_eq_ok.1 hrun
    obtain ⟨first', outcome', last', rest', hfirst', hlast', rfl, rfl⟩ := (isStage c' release).cons_eq_ok.1 hrun'
    have hrest : (id, .applied) ∉ rest := fun hmem => hskipped (List.mem_cons_of_mem _ hmem)
    have hrest' : (id, .applied) ∉ rest' := fun hmem => hskipped' (List.mem_cons_of_mem _ hmem)
    by_cases hid : id = w.id
    · subst hid
      have hunchanged {c : Cycle} {first : Retouched} {outcome : WriterOutcome}
          {rest : List (String × WriterOutcome)}
          (hskipped : (w.id, .applied) ∉ (w.id, outcome) :: rest)
          (hfirst : w.apply c release t = .ok (first, outcome)) : first = ⟨t, []⟩ := by
        cases outcome with
        | applied => exact absurd List.mem_cons_self hskipped
        | skipped reason => exact eq_of_apply_skipped hfirst
      obtain rfl := hunchanged hskipped hfirst
      obtain rfl := hunchanged hskipped' hfirst'
      obtain ⟨rfl, hsame⟩ := ih hws hlast hlast' hrest hrest'
      exact ⟨rfl, by simpa using hsame⟩
    · rw [apply_congr hw hreporting h hid, hfirst'] at hfirst
      cases hfirst
      obtain ⟨rfl, hsame⟩ := ih hws hlast hlast' hrest hrest'
      refine ⟨rfl, ?_⟩
      rw [List.filter_cons, List.filter_cons, hsame]

end Writer

namespace Prompt

variable {r : Reporting} {t : Text}

/-- A prompt that is not written leaves the text as it was. -/
lemma text_of_apply {p : Prompt} {done : Retouched} {outcome : Outcome}
    (h : p.apply r t = .ok (done, outcome)) (houtcome : outcome ≠ .applied) : done.text = t := by
  obtain ⟨located, -, h⟩ := Attempt.bind_eq_ok.1 h
  cases located with
  | error reason => cases h; rfl
  | ok found =>
    obtain ⟨edit?, -, h⟩ := Attempt.bind_eq_ok.1 h
    match edit? with
    | .error reason => cases h; rfl
    | .ok none => cases h; rfl
    | .ok (some e) =>
      obtain ⟨applied, -, h⟩ := Attempt.bind_eq_ok.1 h
      cases applied with
      | error reason => cases h; rfl
      | ok done => cases h; exact absurd rfl houtcome

/-- Without a prompt that is not written, the stage comes to the same. -/
lemma applyAll_eraseIdx {ps : List Prompt} {i : Nat} {done : Retouched}
    {outcomes : List (String × Outcome)} (hrun : applyAll r t ps = .ok (done, outcomes))
    {id : String} {outcome : Outcome} (hi : outcomes[i]? = some (id, outcome))
    (houtcome : outcome ≠ .applied) : ∃ done', done'.text = done.text ∧
      applyAll r t (ps.eraseIdx i) = .ok (done', outcomes.eraseIdx i) := by
  induction ps generalizing t i done outcomes with
  | nil =>
    cases hrun
    cases hi
  | cons p ps ih =>
    obtain ⟨first, firstOutcome, last, rest, hfirst, hlast, rfl, rfl⟩ := (isStage r).cons_eq_ok.1 hrun
    cases i with
    | zero =>
      cases hi
      rw [text_of_apply hfirst houtcome] at hlast
      exact ⟨last, rfl, hlast⟩
    | succ i =>
      obtain ⟨last', htext, hlast'⟩ := ih hlast hi
      refine ⟨⟨last'.text, first.messages ++ last'.messages⟩, htext, ?_⟩
      exact (isStage r).cons_eq_ok.2 ⟨first, firstOutcome, last', _, hfirst, hlast', rfl, rfl⟩

end Prompt

namespace Cycle

lemma run_eq_ok {c : Cycle} {t : Text} {done : Retouched} {report : Report} :
    c.run t = .ok (done, report) ↔ ∃ first last,
      Writer.applyAll c (Release.ofBanner? t) t Writer.all = .ok (first, report.writers) ∧
        Prompt.applyAll c.reporting first.text c.prompts = .ok (last, report.prompts) ∧
        report.release = Release.ofBanner? t ∧ done = ⟨last.text, first.messages ++ last.messages⟩ := by
  unfold run
  constructor
  · intro h
    obtain ⟨⟨first, writers⟩, hwriters, h⟩ := Attempt.bind_eq_ok.1 h
    obtain ⟨⟨last, prompts⟩, hprompts, h⟩ := Attempt.bind_eq_ok.1 h
    cases h
    exact ⟨first, last, hwriters, hprompts, rfl, rfl⟩
  · rintro ⟨first, last, hwriters, hprompts, hrelease, rfl⟩
    obtain ⟨release, writers, prompts⟩ := report
    dsimp only at hwriters hprompts hrelease
    simp only [hwriters, hprompts, hrelease, bind, Except.bind, pure, Except.pure]

/-- What is skipped does not interfere. A report lists every writer once and in order, and every prompt
once and in order. Settings that only one writer reads change nothing else where the writer is skipped
with both of them: the text, the messages, the outcomes of the other writers and those of the prompts stay
the same. And without a prompt that was not written, the text and all other outcomes stay the same. -/
theorem skipped_apart (c : Cycle) (t : Text) : ∃ done report, c.run t = .ok (done, report) ∧
    (Writer.all.map (·.id)).Nodup ∧ report.writers.map (·.1) = Writer.all.map (·.id) ∧
    report.prompts.map (·.1) = c.prompts.map (·.id) ∧
    (∀ w ∈ Writer.all, ∀ settings, c.settings.SameBut w.id settings → ∃ done' report',
      run { c with settings } t = .ok (done', report') ∧
        ((∃ reason, (w.id, .skipped reason) ∈ report.writers) →
          (∃ reason, (w.id, .skipped reason) ∈ report'.writers) →
          done' = done ∧ report'.release = report.release ∧ report'.prompts = report.prompts ∧
            report'.writers.filter (·.1 ≠ w.id) = report.writers.filter (·.1 ≠ w.id))) ∧
    ∀ i id outcome, report.prompts[i]? = some (id, outcome) → outcome ≠ .applied → ∃ done' report',
      run { c with prompts := c.prompts.eraseIdx i } t = .ok (done', report') ∧
        done'.text = done.text ∧ report'.release = report.release ∧ report'.writers = report.writers ∧
        report'.prompts = report.prompts.eraseIdx i := by
  obtain ⟨done, report, hrun, hrelease, hids, hpromptIds, -⟩ := c.exists_run t
  have hnodup : (Writer.all.map (·.id)).Nodup := by decide
  -- a writer has one outcome
  have hskipped {report : Report} (hids : report.writers.map (·.1) = Writer.all.map (·.id)) {id : String}
      (h : ∃ reason, (id, .skipped reason) ∈ report.writers) : (id, .applied) ∉ report.writers := by
    obtain ⟨reason, hmem⟩ := h
    intro happlied
    have heq := List.inj_on_of_nodup_map (hids ▸ hnodup) hmem happlied rfl
    cases heq
  obtain ⟨first, last, hwriters, hprompts, -, hdone⟩ := run_eq_ok.1 hrun
  refine ⟨done, report, hrun, hnodup, hids, hpromptIds, fun w _ settings hsame => ?_,
    fun i id outcome hi houtcome => ?_⟩
  · obtain ⟨done', report', hrun', hrelease', hids', -⟩ := exists_run { c with settings } t
    refine ⟨done', report', hrun', fun h h' => ?_⟩
    obtain ⟨first', last', hwriters', hprompts', -, hdone'⟩ := run_eq_ok.1 hrun'
    obtain ⟨rfl, hothers⟩ := Writer.applyAll_congr (List.Subset.refl _) hwriters hwriters' rfl hsame
      (hskipped hids h) (hskipped hids' h')
    obtain ⟨rfl, hsamePrompts⟩ : last' = last ∧ report'.prompts = report.prompts := by
      simpa using hprompts'.symm.trans hprompts
    exact ⟨by rw [hdone', hdone], by rw [hrelease', hrelease], hsamePrompts, hothers⟩
  · obtain ⟨last', htext, hprompts'⟩ := Prompt.applyAll_eraseIdx hprompts hi houtcome
    refine ⟨⟨last'.text, first.messages ++ last'.messages⟩,
      ⟨report.release, report.writers, report.prompts.eraseIdx i⟩, ?_, by rw [hdone]; exact htext, rfl, rfl, rfl⟩
    exact run_eq_ok.2 ⟨first, last', hwriters, hprompts', hrelease, rfl⟩

end Cycle
end Retouch
