import Retouch.Cycle
import Retouch.Proofs.Literal.Segment
import Retouch.Proofs.Prompt.Stage
import Retouch.Proofs.Release.Banner
import Retouch.Proofs.Scan.Depth

/-! A cycle always ends with a report. No writer and no prompt asks for a part of the text that does not
exist, whatever the text, the settings and the prompts; what cannot be done is skipped, and only a
writer of several edits may find that they get in the way of each other. -/
namespace Retouch

open Attempt

namespace Release

/-- The parts of the release that a banner names can be read from it. -/
lemma banner_liesIn {head : Text} {m : Match} (h : banner.find? head = some m) :
    m.captures.length = 3 ∧ ∀ s ∈ m.captures, s.LiesIn head := by
  have hstands := Pattern.standsIn_of_find? h
  have hbanner : banner.IsUniform := by repeat' constructor
  exact ⟨hstands.length_captures hbanner, fun s => hstands.capture_liesIn⟩

end Release

namespace Writer

/-- A writer always ends, and only a writer of several edits may be skipped for a bad span. -/
theorem exists_apply {w : Writer} (hw : w ∈ all) (c : Cycle) (release : Option Release) (t : Text) :
    ∃ done outcome, w.apply c release t = .ok (done, outcome) ∧
      ∀ start stop, outcome = .skipped (.badSpan start stop) → w.id ∈ severalEdits := by
  have hrun : (w.run c.settings release t).Yields fun es => w.id ∈ severalEdits ∨ Edit.IsOne t es :=
    yields_ite (fun _ => yields_plan hw c.settings t) fun _ => yields_skip nofun
  cases hplan : w.run c.settings release t with
  | error halt =>
    rw [hplan] at hrun
    cases halt with
    | skip reason =>
      refine ⟨⟨t, []⟩, .skipped reason, ?_, fun start stop h => ?_⟩
      · simp only [apply, hplan, settle, bind, Except.bind, pure, Except.pure]
      · cases h
        exact absurd rfl (hrun start stop)
    | fault f => exact hrun.elim
  | ok es =>
    rw [hplan] at hrun
    cases happly : c.reporting.apply t es with
    | ok done =>
      refine ⟨done, .applied, ?_, nofun⟩
      simp only [apply, hplan, happly, settle, bind, Except.bind, pure, Except.pure]
    | error halt =>
      -- one edit that lies in the text is not refused, so there are several
      have hid : w.id ∈ severalEdits := by
        rcases hrun with hid | hone
        · exact hid
        · obtain ⟨done, hdone⟩ := hone.exists_apply c.reporting
          rw [happly] at hdone
          cases hdone
      obtain ⟨e, -, rfl⟩ := Edit.check_error (Edit.check_of_apply_error happly)
      refine ⟨⟨t, []⟩, .skipped (.badSpan e.start e.stop), ?_, fun _ _ _ => hid⟩
      simp only [apply, hplan, happly, settle, bind, Except.bind, pure, Except.pure]

lemma isStage (c : Cycle) (release : Option Release) :
    Stage (·.id) (fun t w => apply w c release t) (applyAll c release) where
  nil _ := rfl
  cons _ _ _ := rfl

/-- Writers always end, with an outcome for each of them in order. -/
theorem exists_applyAll {ws : List Writer} (hws : ws ⊆ all) (c : Cycle) (release : Option Release)
    (t : Text) : ∃ done outcomes, applyAll c release t ws = .ok (done, outcomes) ∧
      outcomes.map (·.1) = ws.map (·.id) ∧
      ∀ id start stop, (id, .skipped (.badSpan start stop)) ∈ outcomes → id ∈ severalEdits := by
  obtain ⟨done, outcomes, hrun, hids, hseveral⟩ := (isStage c release).exists_ok
    (P := fun id outcome => ∀ start stop, outcome = .skipped (.badSpan start stop) → id ∈ severalEdits)
    (fun w (hw : w ∈ ws) t => exists_apply (hws hw) c release t) t
  exact ⟨done, outcomes, hrun, hids, fun id start stop hmem => hseveral _ hmem start stop rfl⟩

end Writer

namespace Cycle

/-- A cycle ends with an outcome for each writer in order and one for each prompt in order. -/
theorem exists_run (c : Cycle) (t : Text) : ∃ done report, c.run t = .ok (done, report) ∧
    report.release = Release.ofBanner? t ∧ report.writers.map (·.1) = Writer.all.map (·.id) ∧
    report.prompts.map (·.1) = c.prompts.map (·.id) ∧
    (∀ id start stop, (id, .skipped (.badSpan start stop)) ∈ report.writers → id ∈ Writer.severalEdits) ∧
    ∀ id start stop, (id, .skipped (.badSpan start stop)) ∉ report.prompts := by
  obtain ⟨first, writers, hwriters, hids, hseveral⟩ :=
    Writer.exists_applyAll (List.Subset.refl Writer.all) c (Release.ofBanner? t) t
  obtain ⟨last, prompts, hprompts, hpromptIds, hnone⟩ :=
    Prompt.exists_applyAll c.reporting first.text c.prompts
  refine ⟨⟨last.text, first.messages ++ last.messages⟩, ⟨Release.ofBanner? t, writers, prompts⟩, ?_,
    rfl, hids, hpromptIds, hseveral, hnone⟩
  simp only [run, hwriters, hprompts, bind, Except.bind, pure, Except.pure]

/-- Nothing in a cycle goes out of bounds. Whatever the text, the settings and the prompts, the cycle
ends with a report: each part of the text that is asked for is there. A bad span is only reported by a
writer of several edits, and never by the prompt stage. The top of the text in which the release is
looked for is there too, and so are the three parts of the number in the banner, what a search goes on
after, and what content is cut up into. No count of open brackets ever falls below zero, in any of the
scans and on any text. -/
theorem run_in_bounds :
    (∀ (c : Cycle) (t : Text), ∃ done report, c.run t = .ok (done, report) ∧
      (∀ id start stop, (id, .skipped (.badSpan start stop)) ∈ report.writers →
        id ∈ ["themes", "thinking-verbs", "subagent-models"]) ∧
      ∀ id start stop, (id, .skipped (.badSpan start stop)) ∉ report.prompts) ∧
    (∀ t : Text, ∃ head, t.slice? 0 (t.boundaryBefore Release.bannerReach) = some head ∧
      ∀ m, Release.banner.find? head = some m →
        m.captures.length = 3 ∧ ∀ s ∈ m.captures, (head.slice? s.start s.stop).isSome) ∧
    (∀ (t needle : Text) (n : Nat), n ∈ t.occurrences needle →
      t.isBoundary n ∧ t.isBoundary (n + needle.size)) ∧
    (∀ (t : Text) (start : Nat),
      Scan.balancedCounted t start 0x7B 0x7D = .ok (Scan.balancedEnd? t start 0x7B 0x7D) ∧
      Scan.balancedCounted t start 0x5B 0x5D = .ok (Scan.balancedEnd? t start 0x5B 0x5D)) ∧
    (∀ lex depth pos bs,
      Scan.expressionEndCounted lex depth pos bs = .ok (Scan.expressionEndFrom lex depth pos bs)) ∧
    (∀ lex depth bs, Scan.depthCounted lex depth bs = .ok (Scan.depthAfter lex depth bs)) ∧
    (∀ opener closer depth pos bs, Scan.openerCounted opener closer depth pos bs =
      .ok (Scan.openerBefore opener closer depth pos bs)) ∧
    (∀ content : Text, Segment.splitCounted (.text [] false) 0 content =
      .ok (Segment.splitFrom (.text [] false) 0 content)) ∧
    ∀ content segments, Segment.split content = .ok segments → segments.flatMap Segment.source = content ∧
      ∀ expr offset, .hole expr offset ∈ segments →
        content.slice? offset (offset + expr.size) = some expr := by
  refine ⟨fun c t => ?_, fun t => ?_, fun t needle n hn => ?_, fun t start => ⟨?_, ?_⟩, Scan.expressionEndCounted_eq,
    Scan.depthCounted_eq, fun opener closer => Scan.openerCounted_eq, fun content => ?_,
    fun content segments => Segment.source_of_split⟩
  · obtain ⟨done, report, hrun, -, -, -, hseveral, hnone⟩ := c.exists_run t
    exact ⟨done, report, hrun, hseveral, hnone⟩
  · exact ⟨_, Text.slice?_boundaryBefore t Release.bannerReach, fun m => Release.banner_liesIn⟩
  · have hstands := Text.standsAt_of_mem_occurrences hn
    exact ⟨hstands.isBoundary, hstands.isBoundary_stop⟩
  · exact Scan.balancedCounted_eq t start (by decide)
  · exact Scan.balancedCounted_eq t start (by decide)
  · exact Segment.splitCounted_eq _ 0 trivial

end Cycle
end Retouch
