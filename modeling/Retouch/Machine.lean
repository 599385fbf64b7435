import Retouch.Host

/-! A machine as a value. A command run on it gives the machine as it is afterwards. -/
namespace Retouch

structure Machine where
  disk : Disk
  /-- How many fresh texts and times have been asked for. -/
  ticks : Nat
  /-- Lines on the screen, the first one first. -/
  printed : List String
  reported : List Text

namespace Machine

def ofDisk (d : Disk) : Machine := ⟨d, 0, [], []⟩

/-- Something that changes the disk, unless it fails. -/
def change (f : Disk → Except DiskError Disk) : StateM Machine (Except DiskError Unit) :=
  fun c =>
    match f c.disk with
    | .ok disk => (.ok (), { c with disk })
    | .error e => (.error e, c)

def look {α : Type} (f : Disk → α) : StateM Machine α := fun c => (f c.disk, c)

/-- A number that has not been given before. -/
def tick : StateM Machine String := fun c => (c.ticks.repr, { c with ticks := c.ticks + 1 })

instance : Host (StateM Machine) where
  kind? p := look (·.kind? p)
  names p := look (·.names p)
  read p := look (·.read p)
  write p bytes := change (·.write p bytes)
  append p bytes := change (·.append p bytes)
  sync _ := change .ok
  copy source target := change (·.copy source target)
  createFolder p := change (·.createFolder p)
  rename old new := change (·.rename old new)
  remove p := change (·.remove p)
  mode? p := look (·.mode? p)
  setMode p mode := change (·.setMode p mode)
  fresh := tick
  now := tick
  print line := modify fun c => { c with printed := c.printed ++ [line] }
  report message := modify fun c => { c with reported := c.reported ++ [message] }

end Machine
end Retouch
