import Retouch.Proofs.Edit.Splice

/-! What a change says where it is shown without color. Its two lines give what was removed and what was put in
its place, between the last characters before the change and the first ones after it. For an edit that was applied
both lines have the same context, and the second one has the content of the edit. -/
namespace Retouch.Diff

open Text

variable {context t before removed after : Text}

/-- The last characters of a text, up to twenty. -/
def AreLast (context t : Text) : Prop := context <:+ t ∧ context.length = min 20 t.length

/-- The first characters of a text, up to twenty. -/
def AreFirst (context t : Text) : Prop := context <+: t ∧ context.length = min 20 t.length

lemma areLast_takeLast (t : Text) : AreLast (takeLast t 20) t := by
  constructor
  · rw [← List.reverse_prefix, takeLast, List.reverse_reverse]
    exact List.take_prefix 20 _
  · rw [takeLast, List.length_reverse, List.length_take, List.length_reverse]

lemma areFirst_take (t : Text) : AreFirst (t.take 20) t := ⟨List.take_prefix 20 t, List.length_take⟩

/-- An edit that was applied is shown by what it replaced and what stands there now. -/
def Parts.ofEdit (before removed after content : Text) : Parts (before ++ removed ++ after)
    (before ++ content ++ after) content before.size (size (before ++ removed)) where
  before := before
  removed := removed
  after := after
  newBefore := before
  added := content
  newAfter := after
  old_eq := rfl
  new_eq := rfl
  start_eq := roundsDown_of_isBoundary (by rw [List.append_assoc]; exact isBoundary_append_size before _)
  stop_eq := by
    rw [size_append, Nat.max_eq_left (Nat.le_add_right _ _), ← size_append]
    exact roundsDown_of_isBoundary (isBoundary_append_size (before ++ removed) after)
  newStart_eq := roundsDown_of_isBoundary (by rw [List.append_assoc]; exact isBoundary_append_size before _)
  newStop_eq := by
    rw [← size_append]
    exact roundsDown_of_isBoundary (isBoundary_append_size (before ++ content) after)

/-- A change is shown whatever the offsets are, which round down to boundaries of the texts, with up to twenty
characters of context on each side; where the sum of an offset and a length is cut off past the end of the text
makes no difference. An edit that fits a text is shown by what was removed and what was put in its place, with the
same context. -/
theorem change_shows_context (old new injected : Text) (start stop : Nat) :
    (∃ p : Parts old new injected start stop, ∃ context later newLater,
      change old new injected start stop false = .ok (plainLines context p.removed later p.added newLater) ∧
      AreLast context p.before ∧ AreFirst later p.after ∧ AreFirst newLater p.newAfter ∧
      ∀ limit, new.size ≤ limit →
        new.RoundsDown (min (p.before.size + injected.size) limit) (size (p.newBefore ++ p.added))) ∧
    ∀ e : Edit, e.fits old = true ↔ ∃ before removed after context later,
      old = before ++ removed ++ after ∧ before.size = e.start ∧ size (before ++ removed) = e.stop ∧
      e.apply old = .ok (before ++ e.content ++ after) ∧
      change old (before ++ e.content ++ after) e.content e.start e.stop false =
        .ok (plainLines context removed later e.content later) ∧
      AreLast context before ∧ AreFirst later after := by
  refine ⟨?_, fun e => ⟨fun hfits => ?_, ?_⟩⟩
  · obtain ⟨p⟩ := exists_parts old new injected start stop
    exact ⟨p, _, _, _, p.change_eq false, areLast_takeLast _, areFirst_take _, areFirst_take _,
      fun limit hlimit => (roundsDown_min_iff hlimit).2 p.newStop_eq⟩
  · obtain ⟨start, stop, content⟩ := e
    obtain ⟨before, removed, after, rfl, rfl, rfl⟩ := (Edit.fits_iff.1 hfits).exists_append
    have happly : Edit.apply ⟨before.size, size (before ++ removed), content⟩ (before ++ removed ++ [] ++ after) =
        .ok (before ++ content ++ [] ++ after) := Edit.apply_of_liesIn rfl rfl
    rw [List.append_nil, List.append_nil] at happly
    exact ⟨before, removed, after, _, _, rfl, rfl, rfl, happly,
      (Parts.ofEdit before removed after content).change_eq false, areLast_takeLast before, areFirst_take after⟩
  · rintro ⟨before, removed, after, -, -, rfl, hstart, hstop, -⟩
    rw [Edit.fits, ← hstart, ← hstop, size_append, slice?_append]
    rfl

/-- Offsets inside a character are rounded down. -/
example : change "a✢b".toList "a✢b".toList "zz".toList 2 99 false = .ok "- a[✢b]\n+ a[]✢b".toList := by decide +kernel

end Retouch.Diff
