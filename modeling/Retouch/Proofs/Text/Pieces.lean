import Mathlib.Data.List.DropRight
import Mathlib.Data.List.TakeWhile
import Mathlib.Tactic.Lemma
import Retouch.Text.Blank

/-! Texts in pieces. A text that is joined from others is split where they are joined, and besides wherever one
of them has the separator. -/
namespace Retouch.Text

variable {isSeparator : Char → Bool} {c : Char} {t : Text}

lemma splitAll_eq_splitOnP (t : Text) (isSeparator : Char → Bool) :
    splitAll t isSeparator = t.splitOnP isSeparator := by
  have hgo (piece : Text) : splitAll.go isSeparator piece t = t.splitOnPPrepend isSeparator piece := by
    induction t generalizing piece with
    | nil => rfl
    | cons c t ih => rw [splitAll.go, List.splitOnPPrepend, ih, ih]
  exact hgo []

lemma splitAll_append (hc : isSeparator c = true) (s t : Text) :
    splitAll (s ++ c :: t) isSeparator = splitAll s isSeparator ++ splitAll t isSeparator := by
  simp only [splitAll_eq_splitOnP]
  exact List.splitOnP_append_cons s t hc

lemma splitAll_of_not_mem (ht : ∀ c ∈ t, isSeparator c = false) : splitAll t isSeparator = [t] := by
  rw [splitAll_eq_splitOnP, List.splitOnP_eq_singleton ht]

/-- A text is joined again from its pieces. -/
lemma join_splitAll (t : Text) (c : Char) : join [c] (splitAll t (· == c)) = t := by
  rw [splitAll_eq_splitOnP]
  exact List.intercalate_splitOn c

/-- The first piece is what comes before the first separator. -/
lemma exists_splitAll_eq_cons (isSeparator : Char → Bool) (t : Text) :
    ∃ later, splitAll t isSeparator = t.takeWhile (!isSeparator ·) :: later := by
  have hgo (piece : Text) : ∃ later, splitAll.go isSeparator piece t =
      (piece.reverse ++ t.takeWhile (!isSeparator ·)) :: later := by
    induction t generalizing piece with
    | nil => exact ⟨[], by simp [splitAll.go]⟩
    | cons c t ih =>
      cases hc : isSeparator c with
      | true => exact ⟨splitAll.go isSeparator [] t, by simp [splitAll.go, hc]⟩
      | false =>
        obtain ⟨later, hlater⟩ := ih (c :: piece)
        exact ⟨later, by simp [splitAll.go, hc, hlater]⟩
  exact hgo []

lemma join_cons_cons (separator t u : Text) (ts : List Text) :
    join separator (t :: u :: ts) = t ++ (separator ++ join separator (u :: ts)) := by
  simp [join]

/-- The pieces of joined texts are the pieces of each. -/
lemma splitAll_join (hc : isSeparator c = true) {ts : List Text} (hne : ts ≠ []) :
    splitAll (join [c] ts) isSeparator = ts.flatMap (splitAll · isSeparator) := by
  induction ts with
  | nil => exact absurd rfl hne
  | cons t ts ih =>
    cases ts with
    | nil => simp [join]
    | cons u ts =>
      rw [join_cons_cons, List.singleton_append, splitAll_append hc, ih (List.cons_ne_nil u ts)]
      rfl

lemma findSome?_flatMap {α β γ : Type} (f : β → Option γ) (g : α → List β) (xs : List α) :
    (xs.flatMap g).findSome? f = xs.findSome? fun x => (g x).findSome? f := by
  induction xs with
  | nil => rfl
  | cons x xs ih =>
    rw [List.flatMap_cons, List.findSome?_append, List.findSome?_cons, ih]
    cases (g x).findSome? f <;> rfl

/-- A text is split at the first place of a character. -/
lemma splitOnce?_append {before : Text} (h : c ∉ before) (after : Text) :
    splitOnce? (before ++ c :: after) [c] = some (before, after) := by
  have hgo (done : Text) :
      splitOnce?.go [c] done (before ++ c :: after) = some (done.reverse ++ before, after) := by
    induction before generalizing done with
    | nil =>
      rw [splitOnce?.go.eq_def]
      simp [after?]
    | cons d before ih =>
      obtain ⟨hd, h⟩ := List.ne_and_not_mem_of_not_mem_cons h
      rw [splitOnce?.go.eq_def]
      simp [after?, hd, ih h]
  exact hgo []

lemma mem_dropWhile_iff {p : Char → Bool} (hc : p c = false) : c ∈ t.dropWhile p ↔ c ∈ t := by
  refine ⟨fun h => (List.dropWhile_sublist p).mem h, fun h => ?_⟩
  rw [← List.takeWhile_append_dropWhile (p := p) (l := t)] at h
  rcases List.mem_append.1 h with h | h
  · simp [List.mem_takeWhile_imp h] at hc
  · exact h

/-- No more than white space is trimmed. -/
lemma mem_trim_iff (hc : isBlank c = false) : c ∈ trim t ↔ c ∈ t := by
  rw [trim, trimRight, List.mem_reverse, mem_dropWhile_iff hc, List.mem_reverse, trimLeft, mem_dropWhile_iff hc]

/-! ## Trimming -/

/-- A text has white space around another one, which neither begins nor ends with any. -/
structure TrimsTo (t core : Text) : Prop where
  around : ∃ before after, t = before ++ (core ++ after) ∧ ∀ c ∈ before ++ after, isBlank c = true
  first : ∀ c ∈ core.head?, isBlank c = false
  last : ∀ c ∈ core.getLast?, isBlank c = false

lemma trimsTo_trim (t : Text) : TrimsTo t (trim t) where
  around := by
    refine ⟨t.takeWhile isBlank, (trimLeft t).rtakeWhile isBlank, ?_, fun c hc => ?_⟩
    · have hright : trim t ++ (trimLeft t).rtakeWhile isBlank = trimLeft t := List.rdropWhile_append_rtakeWhile
      rw [hright, trimLeft, List.takeWhile_append_dropWhile]
    · exact (List.mem_append.1 hc).elim List.mem_takeWhile_imp List.mem_rtakeWhile_imp
  first c hc := by
    have hprefix : trim t <+: trimLeft t := List.rdropWhile_prefix _ _
    obtain ⟨rest, hrest⟩ := hprefix
    have hhead : (trimLeft t).head? = some c := by rw [← hrest, List.head?_append, hc]; rfl
    have hnot := List.head?_dropWhile_not isBlank t
    rw [trimLeft] at hhead
    rwa [hhead] at hnot
  last c hc := by
    obtain ⟨hne, rfl⟩ := List.mem_getLast?_eq_getLast hc
    exact Bool.eq_false_iff.2 (List.rdropWhile_last_not isBlank (trimLeft t) hne)

lemma dropWhile_of_head? {p : Char → Bool} (h : ∀ c ∈ t.head?, p c = false) : t.dropWhile p = t := by
  cases t with
  | nil => rfl
  | cons c t => exact List.dropWhile_cons_of_neg (Bool.eq_false_iff.1 (h c rfl))

/-- Trimming takes away the white space around a text, and no more. -/
lemma trim_eq_of_trimsTo {core : Text} (h : TrimsTo t core) : trim t = core := by
  obtain ⟨before, after, rfl, hblank⟩ := h.around
  have hbefore : ∀ c ∈ before, isBlank c = true := fun c hc => hblank c (List.mem_append_left after hc)
  have hafter : ∀ c ∈ after.reverse, isBlank c = true :=
    fun c hc => hblank c (List.mem_append_right before (List.mem_reverse.1 hc))
  have hright : trimRight (core ++ after) = core := by
    rw [trimRight, List.reverse_append, List.dropWhile_append_of_pos hafter,
      dropWhile_of_head? (by simpa using h.last), List.reverse_reverse]
  rw [trim, trimLeft, List.dropWhile_append_of_pos hbefore]
  cases core with
  | nil =>
    have hnil : after.dropWhile isBlank = [] := List.dropWhile_eq_nil_iff.2 (by simpa using hafter)
    rw [List.nil_append, hnil]
    rfl
  | cons c core => rw [dropWhile_of_head? (by simpa using h.first), hright]

end Retouch.Text
