import Retouch.Path
import Retouch.SortedMap

/-! A disk as a value: names lead to files and folders, and several names may lead to one file. Writing
to a file shows under all of its names; putting a name in the place of another one does not. -/
namespace Retouch

inductive DiskError where
  | notFound
  | permissionDenied
  | alreadyExists
  | notADirectory
  | isADirectory
  | invalidInput
  /-- The bytes are not text. -/
  | invalidData
  | other
  deriving DecidableEq, Repr

def DiskError.message : DiskError → String
  | notFound => "no such file or directory"
  | permissionDenied => "permission denied"
  | alreadyExists => "file exists"
  | notADirectory => "not a directory"
  | isADirectory => "is a directory"
  | invalidInput => "not possible with this path"
  | invalidData => "not valid UTF-8"
  | other => "input or output failed"

/-- Permission bits. -/
abbrev Mode := Nat

structure File where
  bytes : List UInt8
  mode : Mode
  deriving DecidableEq, Repr, Inhabited

inductive Entry where
  | folder (mode : Mode)
  /-- A name of the file with a number. -/
  | file (number : Nat)
  deriving DecidableEq, Repr

inductive Kind where
  | folder
  | file
  deriving DecidableEq, Repr

/-- The names that lead to a file or folder from the root. -/
abbrev Disk.Place := List String

structure Disk where
  entries : SortedMap Disk.Place Entry
  files : SortedMap Nat File
  /-- Where paths start that do not start at the root. -/
  base : Disk.Place

namespace Disk

def newFileMode : Mode := 0o644

def newFolderMode : Mode := 0o755

/-- A disk without files. -/
def blank (base : Place) : Disk :=
  let places := (List.range base.length).map fun n => base.take (n + 1)
  ⟨.ofList (places.map (·, .folder newFolderMode)), .empty, base⟩

def entry? (d : Disk) (place : Place) : Option Entry :=
  if place.isEmpty then some (.folder newFolderMode) else d.entries.get? place

def file (d : Disk) (number : Nat) : File := (d.files.get? number).getD default

/-- Follows names from a place. Only folders can be left by a name. -/
def follow (d : Disk) (place : Place) : List String → Except DiskError Place
  | [] => .ok place
  | n :: ns =>
    match d.entry? place with
    | none => .error .notFound
    | some (.file _) => .error .notADirectory
    | some (.folder _) =>
      follow d (if Path.isIdle n then place else if n == ".." then place.dropLast else place ++ [n]) ns

/-- The place to which a path leads, where there need not be anything yet. -/
def locate (d : Disk) (p : Path) : Except DiskError Place :=
  if p.isEmpty then .error .notFound
  else d.follow (if p.isAbsolute then [] else d.base) p.segments

/-- What a path leads to. -/
def find (d : Disk) (p : Path) : Except DiskError (Place × Entry) := do
  let place ← d.locate p
  match d.entry? place with
  | some e => return (place, e)
  | none => .error .notFound

def kind? (d : Disk) (p : Path) : Option Kind :=
  match d.find p with
  | .ok (_, .folder _) => some .folder
  | .ok (_, .file _) => some .file
  | .error _ => none

def mode? (d : Disk) (p : Path) : Option Mode :=
  match d.find p with
  | .ok (_, .folder mode) => some mode
  | .ok (_, .file number) => some (d.file number).mode
  | .error _ => none

/-- The number of the file to which a path leads. -/
def fileNumber (d : Disk) (p : Path) : Except DiskError Nat := do
  match ← d.find p with
  | (_, .file number) => return number
  | (_, .folder _) => .error .isADirectory

def read (d : Disk) (p : Path) : Except DiskError (List UInt8) := do
  return (d.file (← d.fileNumber p)).bytes

def setEntry (d : Disk) (place : Place) (e : Entry) : Disk :=
  { d with entries := d.entries.insert place e }

def setFile (d : Disk) (number : Nat) (f : File) : Disk :=
  { d with files := d.files.insert number f }

/-- A number that no name leads to. -/
def unusedNumber (d : Disk) : Nat :=
  d.entries.entries.foldl (fun n (_, e) =>
    match e with
    | .file number => max n (number + 1)
    | .folder _ => n) 0

/-- The file to which a path leads after it has been opened for writing. A new file starts empty. -/
def openFile (d : Disk) (p : Path) (mode : Mode) : Except DiskError (Disk × Nat) := do
  let place ← d.locate p
  match d.entry? place with
  | some (.file number) => return (d, number)
  | some (.folder _) => .error .isADirectory
  | none =>
    let number := d.unusedNumber
    return ((d.setEntry place (.file number)).setFile number ⟨[], mode⟩, number)

/-- Gives a file new bytes. -/
def write (d : Disk) (p : Path) (bytes : List UInt8) : Except DiskError Disk := do
  let (d, number) ← d.openFile p newFileMode
  return d.setFile number { d.file number with bytes }

def append (d : Disk) (p : Path) (bytes : List UInt8) : Except DiskError Disk := do
  let (d, number) ← d.openFile p newFileMode
  let f := d.file number
  return d.setFile number { f with bytes := f.bytes ++ bytes }

/-- Gives a file the bytes and the mode of another one. A file copied onto itself is emptied, since
it is opened for writing before it is read. -/
def copy (d : Disk) (source target : Path) : Except DiskError Disk := do
  match ← d.find source with
  | (_, .folder _) => .error .invalidInput
  | (_, .file number) =>
    let mode := (d.file number).mode
    let (d, copied) ← d.openFile target mode
    return d.setFile copied ⟨if copied = number then [] else (d.file number).bytes, mode⟩

def createFolder (d : Disk) (p : Path) : Except DiskError Disk := do
  let place ← d.locate p.dropSlashes
  match d.entry? place with
  | some _ => .error .alreadyExists
  | none => return d.setEntry place (.folder newFolderMode)

def setMode (d : Disk) (p : Path) (mode : Mode) : Except DiskError Disk := do
  match ← d.find p with
  | (place, .folder _) => return d.setEntry place (.folder mode)
  | (_, .file number) => return d.setFile number { d.file number with mode }

/-- Takes a name away. The file stays under its other names. -/
def unname (d : Disk) (place : Place) : Disk := { d with entries := d.entries.erase place }

def remove (d : Disk) (p : Path) : Except DiskError Disk := do
  match ← d.find p with
  | (place, .file _) => return d.unname place
  | (_, .folder _) => .error .isADirectory

/-- Puts the name of a file in the place of another name. -/
def rename (d : Disk) (old new : Path) : Except DiskError Disk := do
  match ← d.find old with
  | (_, .folder _) => .error .other
  | (place, .file number) =>
    let target ← d.locate new
    match d.entry? target with
    | some (.folder _) => .error .isADirectory
    | other =>
      if other = some (.file number) then return d
      return (d.unname place).setEntry target (.file number)

/-- Gives a file another name. -/
def link (d : Disk) (old new : Path) : Except DiskError Disk := do
  let number ← d.fileNumber old
  let place ← d.locate new
  match d.entry? place with
  | some _ => .error .alreadyExists
  | none => return d.setEntry place (.file number)

/-- The names in a folder, in order. -/
def names (d : Disk) (p : Path) : List String :=
  match d.find p with
  | .ok (place, .folder _) =>
    d.entries.keys.filterMap fun key => if key.dropLast = place then key.getLast? else none
  | _ => []

/-- Places of all files below a place, in order. -/
def filesBelow (d : Disk) (place : Place) : List Place :=
  d.entries.entries.filterMap fun (key, e) =>
    match e with
    | .file _ => if place.isPrefixOf key then some (key.drop place.length) else none
    | .folder _ => none

end Disk
end Retouch
