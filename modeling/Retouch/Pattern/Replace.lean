import Retouch.Pattern.Basic

/-! Text with every match of a pattern replaced. -/
namespace Retouch.Pattern

/-- Replaces spans, given in order, in a text that starts at `pos`. -/
def replaceSpans (new : Text → Text) (pos : Nat) : List Span → Text → Text
  | [], t => t
  | s :: spans, t =>
    match t.cut? (s.start - pos) with
    | none => t
    | some (before, t) =>
      match t.cut? (s.stop - s.start) with
      | none => before ++ t
      | some (found, t) => before ++ new found ++ replaceSpans new s.stop spans t

def replaceAll (p : Pattern) (new : Text → Text) (t : Text) : Text :=
  replaceSpans new 0 ((p.matchesIn t).map (·.span)) t

end Retouch.Pattern
