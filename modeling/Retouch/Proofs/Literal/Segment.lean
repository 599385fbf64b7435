import Retouch.Proofs.Literal.Division

/-! What splitting content gives: pieces of text that are not empty, with a hole between any two of
them, and expressions whose braces are balanced and that stand at their offsets. -/
namespace Retouch.Segment

/-- Text is not empty and is followed by a hole, if by anything, and expressions are balanced. -/
def WellFormed : List Segment → Prop
  | [] => True
  | .text t :: rest => t ≠ [] ∧ (∀ s ∈ rest.head?, s.isHole) ∧ WellFormed rest
  | .hole expr _ :: rest => Literal.Balanced expr ∧ WellFormed rest

variable {content front : Text} {segments : List Segment}

lemma AllFit.wellFormed (h : AllFit front segments) : WellFormed segments := by
  induction segments generalizing front with
  | nil => trivial
  | cons s segments ih =>
    obtain ⟨hs, hlater⟩ := allFit_cons.1 h
    cases s with
    | text t => exact ⟨hs.1, hs.2.2, ih hlater⟩
    | hole expr offset => exact ⟨balanced_iff_matched.2 hs.2.1, ih hlater⟩

/-- Content is split into well-formed segments. -/
theorem wellFormed_of_split (h : split content = .ok segments) : WellFormed segments :=
  AllFit.wellFormed (divides_iff.1 (divides_of_split h)).2

/-- Content is split into its parts, and each expression stands at its offset. -/
theorem source_of_split (h : split content = .ok segments) :
    segments.flatMap source = content ∧ ∀ expr offset, .hole expr offset ∈ segments →
      content.slice? offset (offset + expr.size) = some expr := by
  have hdivides := divides_of_split h
  refine ⟨hdivides.source, fun expr offset hmem => ?_⟩
  obtain ⟨before, after, rfl⟩ := List.append_of_mem hmem
  obtain ⟨-, -, rfl⟩ := hdivides.fits before _ after rfl
  have hslice := Text.slice?_append (before.flatMap source ++ ['$', '\x7b']) expr
    ('\x7d' :: after.flatMap source)
  have hcontent : before.flatMap source ++ ['$', '\x7b'] ++ expr ++ '\x7d' :: after.flatMap source =
      content := by
    rw [← hdivides.source]
    simp [source]
  have hsize : Text.size (before.flatMap source ++ ['$', '\x7b']) =
      Text.size (before.flatMap source) + 2 := by
    rw [Text.size_append]
    rfl
  rwa [hcontent, hsize] at hslice

end Retouch.Segment
