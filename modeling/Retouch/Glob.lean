import Retouch.Host

/-! Paths with wild cards. A pattern is matched name by name, so that no wild card but a whole name of
two stars reaches across a slash. -/
namespace Retouch

/-- A part of a pattern for one name. -/
inductive WildCard where
  | char (c : Char)
  | any
  | anyRun
  /-- One character within some ranges, or outside of all of them. -/
  | ranges (isWithin : Bool) (rs : List (Char × Char))
  deriving DecidableEq, Repr

namespace WildCard

/-- The ranges between brackets; a dash with a character on either side makes a range. -/
def readRanges : Text → List (Char × Char)
  | a :: '-' :: b :: rest => (a, b) :: readRanges rest
  | a :: rest => (a, a) :: readRanges rest
  | [] => []

/-- Ranges after their opening bracket, and what follows the closing one. There is at least one
character between the brackets. -/
def readSet (t : Text) : Option (WildCard × Text) :=
  let (isWithin, t) := match t with
    | '!' :: t => (false, t)
    | t => (true, t)
  match t with
  | [] => none
  | first :: rest =>
    match rest.dropWhile (· != ']') with
    | [] => none
    | _ :: after => some (ranges isWithin (readRanges (first :: rest.takeWhile (· != ']'))), after)

/-- The pattern of one name, unless it is malformed. Each round takes at least one character. -/
def read : (fuel : Nat) → Text → Option (List WildCard)
  | _, [] => some []
  | 0, _ => none
  | fuel + 1, c :: t =>
    if c = '*' then
      if t.head? = some '*' then none else (read fuel t).map (anyRun :: ·)
    else if c = '?' then (read fuel t).map (any :: ·)
    else if c = '[' then do
      let (w, rest) ← readSet t
      return w :: (← read fuel rest)
    else (read fuel t).map (char c :: ·)

/-- The wild card stands for a character. -/
def admits : WildCard → Char → Bool
  | char c, d => c = d
  | any, _ | anyRun, _ => true
  | ranges isWithin rs, d => isWithin == rs.any fun (low, high) => low ≤ d && d ≤ high

/-- The text and what is left of it after each of its characters. -/
def suffixes : Text → List Text
  | [] => [[]]
  | c :: t => (c :: t) :: suffixes t

/-- A whole name fits a pattern. -/
def fits : List WildCard → Text → Bool
  | [], t => t.isEmpty
  | anyRun :: ws, t => (suffixes t).any (fits ws)
  | _ :: _, [] => false
  | w :: ws, c :: t => w.admits c && fits ws t

end WildCard

/-- A pattern for one step of a path. -/
inductive PathStep where
  /-- A name without wild cards, which need not be looked for. -/
  | fixed (name : String)
  | wild (pattern : List WildCard)
  /-- Any number of folders. -/
  | deep
  deriving DecidableEq, Repr

namespace PathStep

/-- The name of a pattern without wild cards. -/
def fixedName? (pattern : List WildCard) : Option Text :=
  pattern.mapM fun
    | .char c => some c
    | _ => none

def ofText? (t : Text) : Option PathStep :=
  if t = ['*', '*'] then some deep
  else do
    let pattern ← WildCard.read t.length t
    match fixedName? pattern with
    | some name => return fixed (String.ofList name)
    | none => return wild pattern

def fits (name : String) : PathStep → Bool
  | fixed n => n == name
  | wild pattern => WildCard.fits pattern name.toList
  | deep => true

end PathStep

/-- A pattern for paths. -/
structure Glob where
  isAbsolute : Bool
  steps : List PathStep
  /-- Only folders are wanted. -/
  wantsFolder : Bool
  deriving DecidableEq, Repr

namespace Glob

/-- Reads a pattern, unless it is malformed. -/
def ofText? (t : Text) : Option Glob := do
  let isAbsolute := t.head? = some '/'
  let names := Text.splitAll (if isAbsolute then t.tail else t) (· == '/')
  let names := if names.getLast? = some [] then names.dropLast else names
  let steps ← names.mapM PathStep.ofText?
  return ⟨isAbsolute, if steps.isEmpty && isAbsolute then [.fixed ""] else steps, t.getLast? = some '/'⟩

/-- Where a search starts. -/
def workingFolder : Path := "."

/-- A path one step below a folder. The folder in which the search starts is not written. -/
def below (folder : Path) (name : String) : Path :=
  if folder.parts = workingFolder.parts then ⟨name⟩ else folder.join ⟨name⟩

variable {m : Type → Type} [Monad m] [Host m]

def isFolder (p : Path) : m Bool := do return (← Host.kind? p) = some .folder

/-- Names of two kinds that are in no folder, for patterns that start with a dot. -/
def dotsFor (pattern : List WildCard) : List String :=
  if pattern.head? = some (.char '.') then [".", ".."].filter fun n => WildCard.fits pattern n.toList
  else []

/-- Every folder below a folder, down to a number of levels. -/
def foldersBelow : (levels : Nat) → Path → m (List Path)
  | 0, _ => return []
  | levels + 1, folder => do
    let inner ← ((← Host.names folder).map (below folder)).filterM isFolder
    let deeper ← inner.mapM (foldersBelow levels)
    return inner ++ deeper.flatten

/-- How deep a search goes. -/
def depthLimit : Nat := 256

/-- What is in a folder under names that fit a step. -/
def inside (step : PathStep) (folder : Path) : m (List Path) := do
  return ((← Host.names folder).filter fun n => step.fits n).map (below folder)

/-- What one step leads to from a folder or file. -/
def next (step : PathStep) (start : Path) : m (List Path) := do
  match step with
  | .fixed name =>
    let p := below start name
    let isThere ← if name == "." || name == ".." then isFolder start
      else pure (← Host.kind? p).isSome
    return if isThere then [p] else []
  | .wild pattern =>
    if ← isFolder start then
      return (← inside step start) ++ (dotsFor pattern).map fun n => start.join ⟨n⟩
    else return []
  | .deep => return []

/-- What steps lead to, one after the other. After any number of folders, the next step is a name in
the last of them. -/
def walk : List PathStep → (starts : List Path) → m (List Path)
  | [], starts => return starts
  | .deep :: rest, starts => do
    let folders ← starts.filterM isFolder
    let deeper := (← folders.mapM (foldersBelow depthLimit)).flatten
    match rest.dropWhile (· = .deep) with
    | [] => return deeper
    | step :: _ => walkInside step (folders ++ deeper) rest
  | step :: rest, starts => do walk rest (← starts.mapM (next step)).flatten
where
  /-- Passes over further steps of any number of folders. -/
  walkInside (step : PathStep) (folders : List Path) : List PathStep → m (List Path)
    | [] => return []
    | .deep :: rest => walkInside step folders rest
    | _ :: rest => do walk rest (← folders.mapM (inside step)).flatten

/-- All paths that fit a pattern, in order. -/
def search (g : Glob) : m (List Path) := do
  let found ← if g.steps.isEmpty then pure []
    else walk g.steps [if g.isAbsolute then "/" else workingFolder]
  let found ← if g.wantsFolder then found.filterM isFolder else pure found
  return found.mergeSort fun p q => (compare p.parts q.parts).isLE

end Glob
end Retouch
