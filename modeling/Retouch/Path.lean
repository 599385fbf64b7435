import Retouch.Text.Basic

/-! Paths as they are written. A path is kept as its text, and names are taken from it as they are
asked for. -/
namespace Retouch

structure Path where
  text : String
  deriving DecidableEq, Repr

/-- A part of a path that counts when paths are compared. -/
inductive PathPart where
  | root
  | here
  | up
  | name (n : String)
  deriving DecidableEq, Ord, Repr

namespace Path

instance : Coe String Path := ⟨Path.mk⟩

def isEmpty (p : Path) : Bool := p.text.isEmpty

/-- What stands between the slashes. -/
def segments (p : Path) : List String := (Text.splitAll p.text.toList (· == '/')).map String.ofList

def isAbsolute (p : Path) : Bool := p.text.toList.head? = some '/'

/-- A segment that leads nowhere. -/
def isIdle (segment : String) : Bool := segment.isEmpty || segment == "."

def part (segment : String) : PathPart := if segment == ".." then .up else .name segment

/-- The parts of a path; idle segments do not count, except for a dot at the start. -/
def parts (p : Path) : List PathPart :=
  match p.segments with
  | [] => []
  | first :: rest =>
    let start := if p.isAbsolute then .root else if first == "." then .here else part first
    (if p.isEmpty then [] else [start]) ++ (rest.filter (!isIdle ·)).map part

/-- The path without slashes at its end; the root keeps one. -/
def dropSlashes (p : Path) : Path :=
  match p.text.toList.reverse.dropWhile (· == '/') with
  | [] => if p.isEmpty then p else ⟨"/"⟩
  | reversed => ⟨String.ofList reversed.reverse⟩

/-- A path below another one. A path that starts at the root stays as it is. -/
def join (p q : Path) : Path :=
  if q.isAbsolute then q
  else if p.isEmpty || p.text.toList.getLast? = some '/' then ⟨p.text ++ q.text⟩
  else ⟨p.text ++ "/" ++ q.text⟩

def dropIdle (segments : List String) : List String := (segments.reverse.dropWhile isIdle).reverse

/-- The path without its last part. -/
def parent? (p : Path) : Option Path :=
  match p.segments with
  | [] => none
  | first :: rest =>
    let rest := dropIdle rest
    if rest.isEmpty then
      if first.isEmpty then none else some ⟨""⟩
    else
      let above := dropIdle rest.dropLast
      if above.isEmpty && first.isEmpty then some ⟨"/"⟩ else some ⟨"/".intercalate (first :: above)⟩

/-- The path above, if it is not the working directory. -/
def folder? (p : Path) : Option Path := p.parent?.filter (!·.isEmpty)

/-- The name of what the path leads to. -/
def fileName? (p : Path) : Option String :=
  match p.parts.getLast? with
  | some (.name n) => some n
  | _ => none

/-- What follows the last dot of the name, unless the name starts with that dot. -/
def extension? (p : Path) : Option String := do
  let reversed := (← p.fileName?).toList.reverse
  match reversed.dropWhile (· != '.') with
  | _ :: _ :: _ => some (String.ofList (reversed.takeWhile (· != '.')).reverse)
  | _ => none

def hasExtension (p : Path) (extension : String) : Bool :=
  p.extension?.any fun e => e.toList.map Char.toLower == extension.toList

end Path
end Retouch
