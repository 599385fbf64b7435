import Retouch.Proofs.Attempt
import Retouch.Proofs.Machine.Faithful

/-! A machine on which any reading or writing can fail. What is refused is laid down beforehand, so
whatever may go wrong in a run goes wrong under some list of refusals, and under none this is the machine
as it is. -/
namespace Retouch

structure Refusal where
  error : DiskError
  /-- How many bytes have got into the file before; none, if the file has not been opened. -/
  got : Option Nat
  deriving DecidableEq, Repr

/-- The disk after a refusal, for work that can be done up to a number of bytes. -/
def Refusal.leave (r : Refusal) (part : Nat → Disk → Except DiskError Disk) (d : Disk) : Disk :=
  match r.got with
  | none => d
  | some n => (part n d).toOption.getD d

lemma Refusal.leave_cases (r : Refusal) (part : Nat → Disk → Except DiskError Disk) (d : Disk) :
    r.leave part d = d ∨ ∃ n, part n d = .ok (r.leave part d) := by
  rw [leave]
  cases r.got with
  | none => exact .inl rfl
  | some n =>
    change (part n d).toOption.getD d = d ∨ ∃ k, part k d = .ok ((part n d).toOption.getD d)
    cases hpart : part n d with
    | ok d' => exact .inr ⟨n, hpart⟩
    | error e => exact .inl rfl

structure FrailMachine where
  machine : Machine
  /-- What becomes of the requests to come. Those after the end of the list are served. -/
  refusals : List (Option Refusal)

namespace FrailMachine

/-- A request that may be refused with a part of it done. -/
def change (whole : Disk → Except DiskError Disk) (part : Nat → Disk → Except DiskError Disk) :
    StateM FrailMachine (Except DiskError Unit) := fun c =>
  match c.refusals with
  | some r :: rest =>
    (.error r.error, ⟨{ c.machine with disk := r.leave part c.machine.disk }, rest⟩)
  | rest =>
    let (result, machine) := Machine.change whole c.machine
    (result, ⟨machine, rest.tail⟩)

/-- A change that is made as a whole or not at all. -/
def changeAtOnce (whole : Disk → Except DiskError Disk) :
    StateM FrailMachine (Except DiskError Unit) :=
  change whole fun _ _ => .error .other

def read (p : Path) : StateM FrailMachine (Except DiskError (List UInt8)) := fun c =>
  match c.refusals with
  | some r :: rest => (.error r.error, ⟨c.machine, rest⟩)
  | rest => (c.machine.disk.read p, ⟨c.machine, rest.tail⟩)

/-- Work that is never refused. -/
def always {α : Type} (work : StateM Machine α) : StateM FrailMachine α := fun c =>
  let (a, machine) := work c.machine
  (a, { c with machine })

instance : Host (StateM FrailMachine) where
  kind? p := always (Host.kind? p)
  names p := always (Host.names p)
  read := read
  write p bytes := change (·.write p bytes) fun n d => d.write p (bytes.take n)
  append p bytes := change (·.append p bytes) fun n d => d.append p (bytes.take n)
  sync _ := changeAtOnce .ok
  copy source target := change (·.copy source target) fun n d => do
    let d ← d.copy source target
    d.write target ((← d.read target).take n)
  createFolder p := changeAtOnce (·.createFolder p)
  rename old new := changeAtOnce (·.rename old new)
  remove p := changeAtOnce (·.remove p)
  mode? p := always (Host.mode? p)
  setMode p mode := changeAtOnce (·.setMode p mode)
  fresh := always Host.fresh
  now := always Host.now
  print line := always (Host.print line)
  report message := always (Host.report message)

instance : HasDisk FrailMachine := ⟨(·.machine.disk), (·.machine.ticks)⟩

lemma acts_change {whole : Disk → Except DiskError Disk}
    {part : Nat → Disk → Except DiskError Disk} {partly : Disk → Disk → Prop}
    (h : ∀ n d d', part n d = .ok d' → partly d d') : Acts (change whole part) whole partly := by
  rintro ⟨machine, _ | ⟨_ | r, rest⟩⟩
  · exact Machine.acts_change whole partly machine
  · exact Machine.acts_change whole partly machine
  · rcases r.leave_cases part machine.disk with hnone | ⟨n, hpart⟩
    · exact ⟨rfl, .inl hnone⟩
    · exact ⟨rfl, .inr (h n _ _ hpart)⟩

lemma acts_changeAtOnce (whole : Disk → Except DiskError Disk) :
    Acts (changeAtOnce whole) whole fun _ _ => False :=
  acts_change fun _ _ _ h => nomatch h

lemma looks_read (p : Path) : Looks (read p) := by
  rintro ⟨machine, refusals⟩
  match refusals with
  | [] => exact ⟨rfl, Nat.le_refl _⟩
  | none :: rest => exact ⟨rfl, Nat.le_refl _⟩
  | some r :: rest => exact ⟨rfl, Nat.le_refl _⟩

lemma read_eq_ok (p : Path) (c : FrailMachine) (bytes : List UInt8)
    (h : ((read p).run c).1 = .ok bytes) : c.machine.disk.read p = .ok bytes := by
  obtain ⟨machine, refusals⟩ := c
  match refusals with
  | [] => exact h
  | none :: rest => exact h
  | some r :: rest => cases h

instance : Faithful FrailMachine where
  kind? _ _ := rfl
  mode? _ _ := rfl
  looks_read := looks_read
  read := read_eq_ok
  write _ _ := acts_change fun _ _ _ h => ⟨_, h⟩
  append _ _ := acts_change fun _ _ _ h => ⟨_, h⟩
  sync _ := acts_changeAtOnce _
  copy _ _ := acts_change fun _ _ _ h => by
    obtain ⟨d₁, hcopy, h⟩ := Attempt.bind_eq_ok.1 h
    obtain ⟨bytes, -, hwrite⟩ := Attempt.bind_eq_ok.1 h
    exact ⟨d₁, _, hcopy, hwrite⟩
  createFolder _ := acts_changeAtOnce _
  rename _ _ := acts_changeAtOnce _
  remove _ := acts_changeAtOnce _
  setMode _ _ := acts_changeAtOnce _
  fresh _ := rfl
  disk_fresh _ := rfl
  ticks_fresh _ := Nat.lt_succ_self _
  now _ := ⟨rfl, Nat.le_succ _⟩
  print _ _ := ⟨rfl, Nat.le_refl _⟩
  report _ _ := ⟨rfl, Nat.le_refl _⟩

end FrailMachine
end Retouch
