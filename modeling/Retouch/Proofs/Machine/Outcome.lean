import Mathlib.Tactic.Lemma
import Retouch.Host

/-! What a task comes to when it is started in a state. A failure ends a chain of tasks, and keeps the
state that the tasks before it have left. -/
namespace Retouch.Task

variable {σ α β : Type} {t : Task (StateM σ) α} {k : α → Task (StateM σ) β} {s s' : σ}

def outcome (t : Task (StateM σ) α) (s : σ) : Except Failure α × σ := (ExceptT.run t).run s

@[simp] lemma outcome_pure (a : α) (s : σ) :
    outcome (pure a : Task (StateM σ) α) s = (.ok a, s) := rfl

@[simp] lemma outcome_fail (f : Failure) (s : σ) :
    outcome (fail f : Task (StateM σ) α) s = (.error f, s) := rfl

@[simp] lemma outcome_ofExcept (result : Except Failure α) (s : σ) :
    outcome (ofExcept result : Task (StateM σ) α) s = (result, s) := rfl

@[simp] lemma outcome_ask [Host (StateM σ)] (action : StateM σ α) (s : σ) :
    outcome (ask action) s = (.ok (action.run s).1, (action.run s).2) := rfl

lemma outcome_request (message : String) (action : StateM σ (Except DiskError α)) (s : σ) :
    outcome (request message action) s =
      ((action.run s).1.mapError fun e => ⟨[message], some (.disk e)⟩, (action.run s).2) := by
  rw [outcome, request, ExceptT.run_mk, StateT.run_bind]
  generalize action.run s = ran
  obtain ⟨result, s'⟩ := ran
  cases result <;> rfl

lemma outcome_bind (t : Task (StateM σ) α) (k : α → Task (StateM σ) β) (s : σ) :
    outcome (t >>= k) s =
      match outcome t s with
      | (.ok a, s') => outcome (k a) s'
      | (.error f, s') => (.error f, s') := by
  have h : outcome (t >>= k) s =
      (ExceptT.bindCont k (outcome t s).1 : StateM σ (Except Failure β)).run (outcome t s).2 := rfl
  rw [h]
  obtain ⟨result, s'⟩ := outcome t s
  cases result <;> rfl

lemma outcome_bind_of_ok {a : α} (h : outcome t s = (.ok a, s')) :
    outcome (t >>= k) s = outcome (k a) s' := by
  rw [outcome_bind, h]

/-- Giving another value changes nothing about the state. -/
lemma outcome_bind_pure (t : Task (StateM σ) α) (b : β) (s : σ) :
    (outcome (t >>= fun _ => pure b) s).2 = (outcome t s).2 := by
  rw [outcome_bind]
  rcases outcome t s with ⟨_ | a, s₁⟩
  · rfl
  · rfl

/-- A chain succeeds exactly if its parts do, one after the other. -/
lemma bind_eq_ok {b : β} :
    outcome (t >>= k) s = (.ok b, s') ↔
      ∃ a s₁, outcome t s = (.ok a, s₁) ∧ outcome (k a) s₁ = (.ok b, s') := by
  rw [outcome_bind]
  constructor
  · intro h
    rcases ht : outcome t s with ⟨_ | a, s₁⟩
    · simp [ht] at h
    · rw [ht] at h
      exact ⟨a, s₁, rfl, h⟩
  · rintro ⟨a, s₁, ht, h⟩
    rw [ht]
    exact h

lemma exists_of_isOk (h : (outcome t s).1.isOk = true) : ∃ a s', outcome t s = (.ok a, s') := by
  rcases hrun : outcome t s with ⟨f | a, s'⟩
  · rw [hrun] at h
    cases h
  · exact ⟨a, s', rfl⟩

end Retouch.Task
