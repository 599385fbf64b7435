import Retouch.Glob

/-! Finding the bundle. A path that is given wins; otherwise the first file counts among the
places to look at. -/
namespace Retouch

/-- What a command knows about its surroundings besides the disk. -/
structure Surroundings where
  home : Option String
  userProfile : Option String
  /-- A bundle to look at before all others. -/
  target : Option String
  /-- Messages go to a terminal. -/
  onTerminal : Bool
  deriving DecidableEq, Repr

namespace Surroundings

/-- The home folder, if it is known; an empty path does not count. -/
def homeFolder (s : Surroundings) : Option Path :=
  ((s.home.or s.userProfile).filter (!·.isEmpty)).map Path.mk

end Surroundings

/-- Where to look for the bundle. -/
structure Search where
  /-- Files, or folders in which the bundle has its usual name. -/
  explicit : List Path
  /-- Patterns of the usual places. -/
  usual : List String
  deriving DecidableEq, Repr

namespace Search

def targetVariable : String := "MINITWEAK_TARGET"

def bundleName : Path := "cli.js"

def packageFolder : String := "node_modules/@anthropic-ai/claude-code"

/-- Folders below the home folder that hold packages. -/
def homeRoots : List String := [".npm-global/lib", ".nvm/versions/node/*/lib",
  ".volta/tools/image/packages/@anthropic-ai/claude-code/lib", ".bun/install/global",
  "AppData/Roaming/npm"]

def systemRoots : List String := ["/usr/local/lib", "/usr/lib", "/opt/homebrew/lib"]

def usualPatterns (home : Option Path) : List String :=
  let roots := match home with
    | none => systemRoots
    | some home => homeRoots.map (home.text ++ "/" ++ ·) ++ systemRoots
  roots.map (· ++ "/" ++ packageFolder ++ "/" ++ bundleName.text)

/-- The places for some extra paths. -/
def around (s : Surroundings) (extra : List Path) : Search :=
  ⟨((s.target.filter (!·.isEmpty)).map Path.mk).toList ++ extra, usualPatterns s.homeFolder⟩

variable {m : Type → Type} [Monad m] [Host m]

/-- The bundle that a path stands for: the one in a folder, or the path itself. -/
def bundleAt (p : Path) : m Path := do
  return if ← Glob.isFolder p then p.join bundleName else p

/-- What a pattern finds. A malformed pattern finds nothing. -/
def searchPattern (pattern : String) : m (List Path) :=
  match Glob.ofText? pattern.toList with
  | some g => g.search
  | none => return []

/-- All paths to look at, in order. -/
def places (s : Search) : m (List Path) := do
  return (← s.explicit.mapM bundleAt) ++ (← s.usual.mapM searchPattern).flatten

/-- The first file of some paths. -/
def firstFile? : List Path → m (Option Path)
  | [] => return none
  | p :: ps => do if (← Host.kind? p) = some .file then return some p else firstFile? ps

/-- The bundle at the path that is given, or else at the first candidate that is a file. -/
def locate (s : Search) (given : Option Path) : Task m Path := do
  match given with
  | some p =>
    let p ← Task.ask (bundleAt p)
    if ← Task.isFile p then return p
    else Task.fail (.ofMessage ("target " ++ p.text ++ " does not exist"))
  | none =>
    let places ← Task.ask s.places
    match ← Task.ask (firstFile? places) with
    | some p => return p
    | none => Task.fail (.ofMessage ("no target found in " ++ places.length.repr ++
        " candidate locations; pass --target or set " ++ targetVariable))

end Search
end Retouch
