/-! Sets of code points given as increasing, disjoint closed ranges. -/
namespace Retouch

/-- Closed ranges of code points in increasing order. -/
abbrev CodeRanges := List (Nat × Nat)

namespace CodeRanges

/-- Membership; the search ends at the first range that starts beyond the code point. -/
def contains : CodeRanges → Nat → Bool
  | [], _ => false
  | (low, high) :: rest, n => low ≤ n && (n ≤ high || contains rest n)

@[simp] theorem contains_nil (n : Nat) : contains [] n = false := rfl

@[simp] theorem contains_cons (r : Nat × Nat) (rest : CodeRanges) (n : Nat) :
    contains (r :: rest) n = (decide (r.1 ≤ n) && (decide (n ≤ r.2) || contains rest n)) := rfl

end CodeRanges
end Retouch
