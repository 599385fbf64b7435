import Retouch.Failure

/-! What a command can ask of the machine it runs on. Commands are written once for all machines. -/
namespace Retouch

class Host (m : Type → Type) where
  kind? : Path → m (Option Kind)
  /-- The names in a folder; none, if it cannot be read. -/
  names : Path → m (List String)
  read : Path → m (Except DiskError (List UInt8))
  /-- Gives new bytes to a file, which is created if there is none. -/
  write : Path → List UInt8 → m (Except DiskError Unit)
  append : Path → List UInt8 → m (Except DiskError Unit)
  /-- Sees to it that the bytes of a file last. -/
  sync : Path → m (Except DiskError Unit)
  /-- Copies the bytes and the permissions of a file. -/
  copy : (source target : Path) → m (Except DiskError Unit)
  createFolder : Path → m (Except DiskError Unit)
  rename : (old new : Path) → m (Except DiskError Unit)
  remove : Path → m (Except DiskError Unit)
  /-- The permissions of a file, if they can be read. -/
  mode? : Path → m (Option Mode)
  setMode : Path → Mode → m (Except DiskError Unit)
  /-- A text that has not been given before. -/
  fresh : m String
  /-- The date and time. -/
  now : m String
  print : String → m Unit
  /-- Tells about changes to the text of the bundle. -/
  report : Text → m Unit

/-- Work that may fail. What has been done before the failure stays done. -/
abbrev Task (m : Type → Type) := ExceptT Failure m

namespace Task

variable {m : Type → Type} [Monad m]

def fail {α : Type} (f : Failure) : Task m α := throw f

def ofExcept {α : Type} (result : Except Failure α) : Task m α := ExceptT.mk (pure result)

/-- A request to the disk, with the message of its failure. -/
def request {α : Type} (message : String) (action : m (Except DiskError α)) : Task m α :=
  ExceptT.mk do
    match ← action with
    | .ok a => return .ok a
    | .error e => return .error ⟨[message], some (.disk e)⟩

variable [Host m]

def ask {α : Type} (action : m α) : Task m α := ExceptT.lift action

def isFile (p : Path) : Task m Bool := do return (← ask (Host.kind? p)) = some .file

def isFolder (p : Path) : Task m Bool := do return (← ask (Host.kind? p)) = some .folder

def exists? (p : Path) : Task m Bool := do return (← ask (Host.kind? p)).isSome

def print (line : String) : Task m Unit := ask (Host.print line)

/-- The bytes of a file that is called by what it holds. -/
def read (what : String) (p : Path) : Task m (List UInt8) :=
  request ("reading " ++ what ++ " " ++ p.text) (Host.read p)

/-- The text of a file that is called by what it holds. -/
def readText (what : String) (p : Path) : Task m Text := do
  match Utf8.decode? (← read what p) with
  | some t => return t
  | none => fail ⟨["reading " ++ what ++ " " ++ p.text], some (.disk .invalidData)⟩

def write (what : String) (p : Path) (bytes : List UInt8) : Task m Unit :=
  request ("writing " ++ what ++ " " ++ p.text) (Host.write p bytes)

/-- Creates a folder and those above it, as far as there are none. Each folder above has a shorter
path, so the length of the path is enough fuel. -/
def createFolders (message : String) (p : Path) : Task m Unit := go (p.text.length + 1) p
where
  /-- Creates the folder, unless there is one. -/
  create (p : Path) : Task m Unit := do
    match ← ask (Host.createFolder p) with
    | .ok () => return
    | .error e => if !(← isFolder p) then fail ⟨[message], some (.disk e)⟩
  go : Nat → Path → Task m Unit
    | 0, _ => fail ⟨[message], some (.disk .other)⟩
    | fuel + 1, p => do
      if p.isEmpty then return
      match ← ask (Host.createFolder p) with
      | .ok () => return
      | .error .notFound =>
        match p.parent? with
        | none => fail ⟨[message], some (.disk .other)⟩
        | some above =>
          go fuel above
          create p
      | .error e => if !(← isFolder p) then fail ⟨[message], some (.disk e)⟩

/-- Creates the folder in which a path lies. -/
def createFolderOf (p : Path) : Task m Unit := do
  match p.folder? with
  | some folder => createFolders ("creating directory " ++ folder.text) folder
  | none => return

end Task
end Retouch
