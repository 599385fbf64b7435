import Retouch.Proofs.Attempt

/-! Attempts that go well. Such an attempt never asks for a part of the text that does not exist, it is
never skipped for a span of its own making, and its value has some property. Steps that go well make an
attempt that goes well, whatever it consists of. -/
namespace Retouch.Attempt

variable {α β : Type} {x : Attempt α} {P P' : α → Prop} {Q : β → Prop} {reason : Skip}

/-- The attempt does not fault, is not skipped for a bad span, and has a value with the property if it
has one. -/
def Yields (x : Attempt α) (P : α → Prop) : Prop :=
  match x with
  | .ok a => P a
  | .error (.skip reason) => ∀ start stop, reason ≠ .badSpan start stop
  | .error (.fault _) => False

@[simp] lemma yields_ok {a : α} : Yields (.ok a) P ↔ P a := .rfl

@[simp] lemma yields_pure {a : α} : Yields (pure a) P ↔ P a := .rfl

lemma yields_skip (h : ∀ start stop, reason ≠ .badSpan start stop) : (skip reason : Attempt α).Yields P := h

lemma Yields.bind {f : α → Attempt β} (h : x.Yields P) (hf : ∀ a, P a → (f a).Yields Q) :
    (x >>= f).Yields Q := by
  cases x with
  | ok a => exact hf a h
  | error halt =>
    cases halt with
    | skip reason => exact h
    | fault f => exact h

lemma Yields.mono (h : x.Yields P) (hP : ∀ a, P a → P' a) : x.Yields P' := by
  cases x with
  | ok a => exact hP a h
  | error halt =>
    cases halt with
    | skip reason => exact h
    | fault f => exact h

@[simp] lemma settle_ok (a : α) : settle (.ok a : Attempt α) = .ok (.ok a) := rfl

lemma Yields.settle (h : x.Yields P) :
    (∃ a, x.settle = .ok (.ok a) ∧ P a) ∨
      ∃ reason, x.settle = .ok (.error reason) ∧ ∀ start stop, reason ≠ .badSpan start stop := by
  cases x with
  | ok a => exact .inl ⟨a, rfl, h⟩
  | error halt =>
    cases halt with
    | skip reason => exact .inr ⟨reason, rfl, h⟩
    | fault f => exact h.elim

lemma yields_orSkip {o : Option α} (ho : ∀ a, o = some a → P a)
    (h : ∀ start stop, reason ≠ .badSpan start stop) : (orSkip o reason).Yields P := by
  cases o with
  | none => exact h
  | some a => exact ho a rfl

lemma yields_orSkip_true {o : Option α} (h : ∀ start stop, reason ≠ .badSpan start stop) :
    (orSkip o reason).Yields fun _ => True :=
  yields_orSkip (fun _ _ => trivial) h

lemma yields_demand {o : Option α} (h : ∃ a, o = some a ∧ P a) : (demand o).Yields P := by
  obtain ⟨a, rfl, ha⟩ := h
  exact ha

lemma yields_demand_of_isSome {o : Option α} (h : o.isSome) : (demand o).Yields (o = some ·) := by
  obtain ⟨a, rfl⟩ := Option.isSome_iff_exists.1 h
  rfl

lemma yields_ite {c : Prop} [Decidable c] {y : Attempt α} (hx : c → x.Yields P)
    (hy : ¬c → y.Yields P) : (if c then x else y).Yields P := by
  split
  · next h => exact hx h
  · next h => exact hy h

/-- A test that leaves a chain of steps, as it is written with the rest of the chain. -/
lemma yields_unless {c : Prop} [Decidable c] {f : PUnit → Attempt α}
    (h : ∀ start stop, reason ≠ .badSpan start stop) (hf : ¬c → (f ⟨⟩).Yields P) :
    (if c then skip reason >>= f else f ⟨⟩).Yields P :=
  yields_ite (fun _ => h) hf

lemma yields_mapM {f : α → Attempt β} {as : List α} (h : ∀ a ∈ as, (f a).Yields Q) :
    (as.mapM f).Yields fun bs => ∀ b ∈ bs, Q b := by
  induction as with
  | nil => simp
  | cons a as ih =>
    rw [List.mapM_cons]
    refine (h a List.mem_cons_self).bind fun b hb => ?_
    refine (ih fun a' ha' => h a' (List.mem_cons_of_mem a ha')).bind fun bs hbs => ?_
    rw [yields_pure]
    exact List.forall_mem_cons.2 ⟨hb, hbs⟩

lemma yields_findSomeM? {f : α → Attempt (Option β)} {as : List α}
    (h : ∀ a ∈ as, (f a).Yields fun o => ∀ b, o = some b → Q b) :
    (as.findSomeM? f).Yields fun o => ∀ b, o = some b → Q b := by
  induction as with
  | nil => nofun
  | cons a as ih =>
    rw [List.findSomeM?]
    refine (h a List.mem_cons_self).bind fun o ho => ?_
    cases o with
    | none => exact ih fun a' ha' => h a' (List.mem_cons_of_mem a ha')
    | some b => exact ho

lemma yields_findM? {f : α → Attempt Bool} {as : List α}
    (h : ∀ a ∈ as, (f a).Yields fun _ => True) : (as.findM? f).Yields fun o => ∀ a, o = some a → a ∈ as := by
  induction as with
  | nil => nofun
  | cons a as ih =>
    rw [List.findM?]
    refine (h a List.mem_cons_self).bind fun found _ => ?_
    cases found with
    | true => exact fun b hb => Option.some.inj hb ▸ List.mem_cons_self
    | false =>
      exact (ih fun a' ha' => h a' (List.mem_cons_of_mem a ha')).mono fun o ho b hb =>
        List.mem_cons_of_mem a (ho b hb)

end Retouch.Attempt
