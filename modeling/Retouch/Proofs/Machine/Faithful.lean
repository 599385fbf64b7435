import Retouch.Machine
import Retouch.Proofs.Disk.Touches
import Retouch.Proofs.Machine.Outcome

/-! Machines that do to their disk what they are asked to do, or fail. A request that fails may have
done a part of its work, as on a disk that is full. What a task leaves alone follows from what its
requests leave alone, whatever comes of them. -/
namespace Retouch

/-- The disk of a machine, and a count that fresh texts are made of. -/
class HasDisk (σ : Type) where
  disk : σ → Disk
  ticks : σ → Nat

section Laws

variable {σ : Type} [HasDisk σ]
open HasDisk

/-- The request is served in whole, or it fails with nothing or a part of it done. -/
def Acts (action : StateM σ (Except DiskError Unit)) (whole : Disk → Except DiskError Disk)
    (partly : Disk → Disk → Prop) : Prop :=
  ∀ s, ticks (action.run s).2 = ticks s ∧
    match (action.run s).1 with
    | .ok () => whole (disk s) = .ok (disk (action.run s).2)
    | .error _ => disk (action.run s).2 = disk s ∨ partly (disk s) (disk (action.run s).2)

/-- The request leaves the disk as it is. -/
def Looks {α : Type} (action : StateM σ α) : Prop :=
  ∀ s, disk (action.run s).2 = disk s ∧ ticks s ≤ ticks (action.run s).2

variable (σ) in
class Faithful [Host (StateM σ)] : Prop where
  kind? (p : Path) (s : σ) : (Host.kind? (m := StateM σ) p).run s = ((disk s).kind? p, s)
  mode? (p : Path) (s : σ) : (Host.mode? (m := StateM σ) p).run s = ((disk s).mode? p, s)
  looks_read (p : Path) : Looks (Host.read (m := StateM σ) p)
  read (p : Path) (s : σ) (bytes : List UInt8) :
    ((Host.read (m := StateM σ) p).run s).1 = .ok bytes → (disk s).read p = .ok bytes
  write (p : Path) (bytes : List UInt8) :
    Acts (Host.write (m := StateM σ) p bytes) (·.write p bytes)
      fun d d' => ∃ part, d.write p part = .ok d'
  append (p : Path) (bytes : List UInt8) :
    Acts (Host.append (m := StateM σ) p bytes) (·.append p bytes)
      fun d d' => ∃ part, d.append p part = .ok d'
  sync (p : Path) : Acts (Host.sync (m := StateM σ) p) .ok fun _ _ => False
  copy (source target : Path) :
    Acts (Host.copy (m := StateM σ) source target) (·.copy source target)
      fun d d' => ∃ d₁ part, d.copy source target = .ok d₁ ∧ d₁.write target part = .ok d'
  createFolder (p : Path) :
    Acts (Host.createFolder (m := StateM σ) p) (·.createFolder p) fun _ _ => False
  rename (old new : Path) :
    Acts (Host.rename (m := StateM σ) old new) (·.rename old new) fun _ _ => False
  remove (p : Path) : Acts (Host.remove (m := StateM σ) p) (·.remove p) fun _ _ => False
  setMode (p : Path) (mode : Mode) :
    Acts (Host.setMode (m := StateM σ) p mode) (·.setMode p mode) fun _ _ => False
  fresh (s : σ) : ((Host.fresh (m := StateM σ)).run s).1 = (ticks s).repr
  disk_fresh (s : σ) : disk ((Host.fresh (m := StateM σ)).run s).2 = disk s
  ticks_fresh (s : σ) : ticks s < ticks ((Host.fresh (m := StateM σ)).run s).2
  now : Looks (Host.now (m := StateM σ))
  print (line : String) : Looks (Host.print (m := StateM σ) line)
  report (message : Text) : Looks (Host.report (m := StateM σ) message)

end Laws

namespace Machine

instance : HasDisk Machine := ⟨Machine.disk, Machine.ticks⟩

lemma acts_change (f : Disk → Except DiskError Disk) (partly : Disk → Disk → Prop) :
    Acts (change f) f partly := by
  intro c
  rw [StateT.run, change]
  cases f c.disk with
  | ok d => exact ⟨rfl, rfl⟩
  | error e => exact ⟨rfl, .inl rfl⟩

instance : Faithful Machine where
  kind? _ _ := rfl
  mode? _ _ := rfl
  looks_read _ _ := ⟨rfl, Nat.le_refl _⟩
  read _ _ _ h := h
  write _ _ := acts_change _ _
  append _ _ := acts_change _ _
  sync _ := acts_change _ _
  copy _ _ := acts_change _ _
  createFolder _ := acts_change _ _
  rename _ _ := acts_change _ _
  remove _ := acts_change _ _
  setMode _ _ := acts_change _ _
  fresh _ := rfl
  disk_fresh _ := rfl
  ticks_fresh _ := Nat.lt_succ_self _
  now _ := ⟨rfl, Nat.le_succ _⟩
  print _ _ := ⟨rfl, Nat.le_refl _⟩
  report _ _ := ⟨rfl, Nat.le_refl _⟩

end Machine
end Retouch
