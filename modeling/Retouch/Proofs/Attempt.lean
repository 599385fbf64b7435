import Mathlib.Tactic.Choose
import Mathlib.Tactic.Lemma
import Retouch.Skip

/-! Opening what succeeded: a chain of steps succeeds exactly if each step does. -/
namespace Retouch.Attempt

variable {ε α β : Type}

instance decidableEqExcept [DecidableEq ε] [DecidableEq α] : DecidableEq (Except ε α)
  | .error e, .error e' => decidable_of_iff (e = e') ⟨congrArg _, Except.error.inj⟩
  | .ok a, .ok a' => decidable_of_iff (a = a') ⟨congrArg _, Except.ok.inj⟩
  | .error _, .ok _ => .isFalse fun h => by cases h
  | .ok _, .error _ => .isFalse fun h => by cases h

lemma bind_eq_ok {x : Except ε α} {f : α → Except ε β} {b : β} :
    (x >>= f) = .ok b ↔ ∃ a, x = .ok a ∧ f a = .ok b := by
  cases x <;> simp [bind, Except.bind]

lemma bind_eq_error_iff {x : Except ε α} {f : α → Except ε β} {e : ε} :
    (x >>= f) = .error e ↔ x = .error e ∨ ∃ a, x = .ok a ∧ f a = .error e := by
  cases x <;> simp [bind, Except.bind]

lemma demand_eq_ok {o : Option α} {a : α} : demand o = .ok a ↔ o = some a := by
  cases o <;> simp [demand]

lemma orSkip_eq_ok {o : Option α} {reason : Skip} {a : α} : orSkip o reason = .ok a ↔ o = some a := by
  cases o <;> simp [orSkip, skip]

lemma mapError_eq_ok {δ : Type} {x : Except ε α} {f : ε → δ} {a : α} :
    x.mapError f = .ok a ↔ x = .ok a := by
  cases x <;> constructor <;> intro h <;> cases h <;> rfl

lemma mapM_cons_eq_ok {f : α → Except ε β} {a : α} {as : List α} {bs : List β} :
    (a :: as).mapM f = .ok bs ↔ ∃ b bs', bs = b :: bs' ∧ f a = .ok b ∧ as.mapM f = .ok bs' := by
  rw [List.mapM_cons, bind_eq_ok]
  constructor
  · rintro ⟨b, hb, h⟩
    obtain ⟨bs', hbs', h⟩ := bind_eq_ok.1 h
    cases h
    exact ⟨b, bs', rfl, hb, hbs'⟩
  · rintro ⟨b, bs', rfl, hb, hbs'⟩
    exact ⟨b, hb, bind_eq_ok.2 ⟨bs', hbs', rfl⟩⟩

/-- A list of steps fails at the first step that does. -/
lemma mapM_eq_error_iff {f : α → Except ε β} {as : List α} {e : ε} :
    as.mapM f = .error e ↔ ∃ before a after, as = before ++ a :: after ∧
      (∀ b ∈ before, ∃ y, f b = .ok y) ∧ f a = .error e := by
  induction as with
  | nil => simp [pure, Except.pure]
  | cons a as ih =>
    rw [List.mapM_cons, bind_eq_error_iff]
    constructor
    · rintro (h | ⟨y, ha, h⟩)
      · exact ⟨[], a, as, rfl, by simp, h⟩
      · rcases bind_eq_error_iff.1 h with h | ⟨ys, -, h⟩
        · obtain ⟨before, b, after, rfl, hbefore, hb⟩ := ih.1 h
          exact ⟨a :: before, b, after, rfl, List.forall_mem_cons.2 ⟨⟨y, ha⟩, hbefore⟩, hb⟩
        · cases h
    · rintro ⟨before, b, after, has, hbefore, hb⟩
      cases before with
      | nil =>
        obtain ⟨rfl, rfl⟩ := List.cons.inj has
        exact .inl hb
      | cons c before =>
        obtain ⟨rfl, rfl⟩ := List.cons.inj has
        obtain ⟨⟨y, hy⟩, hbefore⟩ := List.forall_mem_cons.1 hbefore
        exact .inr ⟨y, hy, bind_eq_error_iff.2 (.inl (ih.2 ⟨before, b, after, rfl, hbefore, hb⟩))⟩

lemma mapM_append_of_ok {f : α → Except ε β} {as as' : List α} {bs bs' : List β}
    (h : as.mapM f = .ok bs) (h' : as'.mapM f = .ok bs') : (as ++ as').mapM f = .ok (bs ++ bs') := by
  rw [List.mapM_append, h, h']
  rfl

/-- A search succeeds if each of its steps does. -/
lemma findSomeM?_of_ok {f : α → Except ε (Option β)} {g : α → Option β} {as : List α}
    (h : ∀ a ∈ as, f a = .ok (g a)) : as.findSomeM? f = .ok (as.findSome? g) := by
  induction as with
  | nil => rfl
  | cons a as ih =>
    obtain ⟨ha, has⟩ := List.forall_mem_cons.1 h
    rw [List.findSomeM?, ha, List.findSome?_cons]
    cases g a with
    | none => exact ih has
    | some b => rfl

/-- What a search finds is found at the first step that has something. -/
lemma findSomeM?_eq_ok_some {f : α → Except ε (Option β)} {as : List α} {b : β} (h : as.findSomeM? f = .ok (some b)) :
    ∃ before a after, as = before ++ a :: after ∧ (∀ c ∈ before, f c = .ok none) ∧ f a = .ok (some b) := by
  induction as with
  | nil => cases h
  | cons a as ih =>
    rw [List.findSomeM?] at h
    obtain ⟨o, ho, h⟩ := bind_eq_ok.1 h
    cases o with
    | some c =>
      cases h
      exact ⟨[], a, as, rfl, nofun, ho⟩
    | none =>
      obtain ⟨before, a', after, rfl, hbefore, hb⟩ := ih h
      exact ⟨a :: before, a', after, rfl, List.forall_mem_cons.2 ⟨ho, hbefore⟩, hb⟩

/-- If each step tells whether something has a property, then a search finds what has it first. -/
lemma exists_findSomeM? {f : α → Except ε (Option β)} {P : α → β → Prop} {as : List α}
    (h : ∀ a ∈ as, ∃ o, f a = .ok o ∧ ∀ b, o = some b ↔ P a b) :
    ∃ o, as.findSomeM? f = .ok o ∧ (o = none ↔ ∀ a ∈ as, ∀ b, ¬P a b) ∧
      ∀ b, o = some b ↔ ∃ before a after, as = before ++ a :: after ∧ (∀ c ∈ before, ∀ b, ¬P c b) ∧ P a b := by
  choose! g hok hg using h
  have hnone {c : α} (hc : c ∈ as) : g c = none ↔ ∀ b, ¬P c b := by
    simp only [Option.eq_none_iff_forall_ne_some, ne_eq, hg c hc]
  refine ⟨as.findSome? g, findSomeM?_of_ok hok, ?_, fun b => ?_⟩
  · rw [List.findSome?_eq_none_iff]
    exact forall₂_congr fun c hc => hnone hc
  · rw [List.findSome?_eq_some_iff]
    constructor
    · rintro ⟨before, a, after, rfl, hb, hbefore⟩
      exact ⟨before, a, after, rfl, fun c hc => (hnone (List.mem_append_left _ hc)).1 (hbefore c hc),
        (hg a (List.mem_append_right before List.mem_cons_self) b).1 hb⟩
    · rintro ⟨before, a, after, rfl, hbefore, hb⟩
      exact ⟨before, a, after, rfl, (hg a (List.mem_append_right before List.mem_cons_self) b).2 hb,
        fun c hc => (hnone (List.mem_append_left _ hc)).2 (hbefore c hc)⟩

end Retouch.Attempt
