import Retouch.Text.Basic

/-! Edit scripts between two lists of lines. The script is a shortest one, found by meeting greedy
searches from both ends, after which insertions and deletions slide as far down as they can. -/
namespace Retouch.Diff

/-- One step from the old lines to the new ones. -/
inductive Step where
  | keep (line : Text)
  | drop (lines : List Text)
  | add (lines : List Text)
  deriving DecidableEq, Repr

/-- Length of the common beginning of two lists. -/
def commonLength : List Text → List Text → Nat
  | a :: as, b :: bs => if a = b then commonLength as bs + 1 else 0
  | _, _ => 0

/-- The farthest position in the old lines on each diagonal, from either end. Diagonals from
`-reach` to `reach` are kept. -/
structure Frontier where
  reach : Nat
  forward : Array Nat
  backward : Array Nat

namespace Frontier

def ofReach (reach : Nat) : Frontier :=
  ⟨reach, .replicate (2 * reach + 1) 0, .replicate (2 * reach + 1) 0⟩

def slot (f : Frontier) (k : Int) : Nat := (k + f.reach).toNat

def ahead (f : Frontier) (k : Int) : Nat := f.forward.getD (f.slot k) 0

def behind (f : Frontier) (k : Int) : Nat := f.backward.getD (f.slot k) 0

def setAhead (f : Frontier) (k : Int) (x : Nat) : Frontier :=
  { f with forward := f.forward.setIfInBounds (f.slot k) x }

def setBehind (f : Frontier) (k : Int) (x : Nat) : Frontier :=
  { f with backward := f.backward.setIfInBounds (f.slot k) x }

end Frontier

/-- Where a search starts on diagonal `k` in round `d`, given the positions on its neighbours. -/
def entry (d k : Int) (below above : Nat) : Nat :=
  if k = -d ∨ (k ≠ d ∧ below < above) then above else below + 1

/-- A point that splits a shortest script in two, if one turns up in the given number of rounds. -/
def middle? (old new : List Text) (rounds : Nat) (frontier : Frontier) :
    Option (Nat × Nat) × Frontier := Id.run do
  let n := old.length
  let m := new.length
  let delta : Int := n - m
  let odd := delta % 2 ≠ 0
  let backOld := old.reverse
  let backNew := new.reverse
  let mut f := (frontier.setAhead 1 0).setBehind 1 0
  for round in [0:rounds] do
    let d : Int := round
    for i in [0:round + 1] do
      let k : Int := d - 2 * i
      let x₀ := entry d k (f.ahead (k - 1)) (f.ahead (k + 1))
      let y₀ : Int := x₀ - k
      let x := if 0 ≤ y₀ then
          x₀ + commonLength (old.drop x₀) (new.drop y₀.toNat)
        else x₀
      f := f.setAhead k x
      if odd && (k - delta).natAbs < d && n ≤ f.ahead k + f.behind (delta - k) then
        return (some (x₀, y₀.toNat), f)
    for i in [0:round + 1] do
      let k : Int := d - 2 * i
      let x₀ := entry d k (f.behind (k - 1)) (f.behind (k + 1))
      let y₀ : Int := x₀ - k
      let run := if 0 ≤ y₀ then
          commonLength (backOld.drop x₀) (backNew.drop y₀.toNat)
        else 0
      f := f.setBehind k (x₀ + run)
      if !odd && (k - delta).natAbs ≤ d && n ≤ f.behind k + f.ahead (delta - k) then
        return (some (n - (x₀ + run), m - (y₀.toNat + run)), f)
  return (none, f)

def dropAll (lines : List Text) : List Step := if lines.isEmpty then [] else [.drop lines]

def addAll (lines : List Text) : List Step := if lines.isEmpty then [] else [.add lines]

/-- A script from the old lines to the new ones. The fuel bounds the nesting of splits; the number
of lines is enough, since both sides of a split are shorter. -/
def scriptFrom : (fuel : Nat) → (old new : List Text) → StateM Frontier (List Step)
  | 0, old, new => return dropAll old ++ addAll new
  | fuel + 1, old, new => do
    let start := commonLength old new
    let old₁ := old.drop start
    let new₁ := new.drop start
    let stop := commonLength old₁.reverse new₁.reverse
    let old₂ := old₁.take (old₁.length - stop)
    let new₂ := new₁.take (new₁.length - stop)
    let kept := (old.take start).map Step.keep
    let tail := (old₁.drop (old₁.length - stop)).map Step.keep
    if old₂.isEmpty || new₂.isEmpty then
      return kept ++ dropAll old₂ ++ addAll new₂ ++ tail
    match ← (middle? old₂ new₂ ((old₂.length + new₂.length + 1) / 2 + 1) : StateM _ _) with
    | none => return kept ++ dropAll old₂ ++ addAll new₂ ++ tail
    | some (x, y) =>
      let first ← scriptFrom fuel (old₂.take x) (new₂.take y)
      let second ← scriptFrom fuel (old₂.drop x) (new₂.drop y)
      return kept ++ first ++ second ++ tail

/-- A step in its place: the steps before it, nearest first, the step, and the steps after it. -/
structure Focus where
  before : List Step
  here : Step
  after : List Step

/-- Moves an insertion up past kept lines as long as its last line is the one above it. Insertions
and deletions change places, and two of a kind merge. -/
def slideUp (here : Step) : (before after : List Step) → Focus
  | [], after => ⟨[], here, after⟩
  | above :: before, after =>
    match here, above with
    | .add lines, .keep line =>
      if lines.getLast? = some line then
        slideUp (.add (line :: lines.dropLast)) before (.keep line :: after)
      else ⟨above :: before, here, after⟩
    | .add lines, .drop _ => slideUp (.add lines) before (above :: after)
    | .drop lines, .add _ => slideUp (.drop lines) before (above :: after)
    | .add lines, .add more => slideUp (.add (more ++ lines)) before after
    | .drop lines, .drop more => slideUp (.drop (more ++ lines)) before after
    | _, _ => ⟨above :: before, here, after⟩

/-- Moves an insertion down past kept lines as long as its first line is the one below it. -/
def slideDown (here : Step) : (before after : List Step) → Focus
  | before, [] => ⟨before, here, []⟩
  | before, below :: after =>
    match here, below with
    | .add (first :: lines), .keep line =>
      if first = line then slideDown (.add (lines ++ [line])) (.keep line :: before) after
      else ⟨before, here, below :: after⟩
    | .add lines, .drop _ => slideDown (.add lines) (below :: before) after
    | .drop lines, .add _ => slideDown (.drop lines) (below :: before) after
    | .add lines, .add more => slideDown (.add (lines ++ more)) before after
    | .drop lines, .drop more => slideDown (.drop (lines ++ more)) before after
    | _, _ => ⟨before, here, below :: after⟩

/-- Slides every step of a kind, from the first to the last. Each round passes at least one step
for good, so as many rounds as there are steps suffice. -/
def settle (isKind : Step → Bool) : (fuel : Nat) → (before after : List Step) → List Step
  | 0, before, after => before.reverse ++ after
  | _ + 1, before, [] => before.reverse
  | fuel + 1, before, here :: after =>
    if isKind here then
      let up := slideUp here before after
      let down := slideDown up.here up.before up.after
      settle isKind fuel (down.here :: down.before) down.after
    else settle isKind fuel (here :: before) after

def Step.isDrop : Step → Bool
  | .drop _ => true
  | _ => false

def Step.isAdd : Step → Bool
  | .add _ => true
  | _ => false

def script (old new : List Text) : List Step :=
  let reach := (old.length + new.length + 1) / 2 + 1
  let steps := ((scriptFrom (old.length + new.length) old new).run (.ofReach reach)).1
  let steps := settle Step.isDrop steps.length [] steps
  settle Step.isAdd steps.length [] steps

end Retouch.Diff
