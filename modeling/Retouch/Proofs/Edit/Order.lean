import Mathlib.Data.List.Sort
import Retouch.Edit.Basic

/-! The order of edits. Edits are arranged by the start and then by the end of their spans, and the
order in which they are applied is the same arrangement read backwards. Among edits of one span the
last one of the list comes first. An arrangement depends on nothing but the order within each span. -/
namespace Retouch.Edit

def span (e : Edit) : Span := ⟨e.start, e.stop⟩

/-- By the start, then by the end. -/
def Precedes (a b : Edit) : Prop := a.start < b.start ∨ (a.start = b.start ∧ a.stop ≤ b.stop)

instance : DecidableRel Precedes := fun a b =>
  inferInstanceAs (Decidable (a.start < b.start ∨ (a.start = b.start ∧ a.stop ≤ b.stop)))

/-- Edits as their spans stand in the text. -/
def ascending (es : List Edit) : List Edit := es.reverse.mergeSort (Precedes · ·)

/-- The edits of one span, in the order of the list. -/
def ofSpan (s : Span) (es : List Edit) : List Edit := es.filter (·.span = s)

/-- Two lists hold the same edits, and those of each span in the same order. -/
def SameTies (es es' : List Edit) : Prop := es.Perm es' ∧ ∀ s, ofSpan s es = ofSpan s es'

lemma Precedes.total (a b : Edit) : Precedes a b ∨ Precedes b a := by
  unfold Precedes
  omega

lemma Precedes.trans {a b c : Edit} (hab : Precedes a b) (hbc : Precedes b c) : Precedes a c := by
  unfold Precedes at *
  omega

instance : Std.Total Precedes := ⟨Precedes.total⟩
instance : IsTrans Edit Precedes := ⟨fun _ _ _ => Precedes.trans⟩

lemma precedes_of_span_eq {a b : Edit} (h : a.span = b.span) : Precedes a b := by
  simp only [span, Span.mk.injEq] at h
  unfold Precedes
  omega

lemma span_eq_of_precedes {a b : Edit} (hab : Precedes a b) (hba : Precedes b a) :
    a.span = b.span := by
  simp only [span, Span.mk.injEq]
  unfold Precedes at *
  omega

lemma isBefore_iff {a b : Edit} : a.isBefore b ↔ Precedes b a := by
  simp only [isBefore, Bool.or_eq_true, Bool.and_eq_true, decide_eq_true_eq, beq_iff_eq, Precedes]

/-- Two sorted lists are equal if they have the same edits of every span in the same order. -/
lemma eq_of_sorted {xs ys : List Edit} (hx : xs.Pairwise Precedes) (hy : ys.Pairwise Precedes)
    (h : ∀ s, ofSpan s xs = ofSpan s ys) : xs = ys := by
  induction xs generalizing ys with
  | nil =>
    cases ys with
    | nil => rfl
    | cons b ys => simpa [ofSpan] using h b.span
  | cons a xs ih =>
    cases ys with
    | nil => simpa [ofSpan] using h a.span
    | cons b ys =>
      obtain ⟨ha, hxs⟩ := List.pairwise_cons.1 hx
      obtain ⟨hb, hys⟩ := List.pairwise_cons.1 hy
      have hmem (e : Edit) : e ∈ a :: xs ↔ e ∈ b :: ys := by
        have := congrArg (e ∈ ·) (h e.span)
        simpa [ofSpan] using this
      have hab : Precedes a b := by
        rcases List.mem_cons.1 ((hmem b).2 List.mem_cons_self) with rfl | hmem
        · exact precedes_of_span_eq rfl
        · exact ha b hmem
      have hba : Precedes b a := by
        rcases List.mem_cons.1 ((hmem a).1 List.mem_cons_self) with rfl | hmem
        · exact precedes_of_span_eq rfl
        · exact hb a hmem
      have hspan := span_eq_of_precedes hab hba
      have hhead := h a.span
      simp only [ofSpan, List.filter_cons, hspan, decide_true, ↓reduceIte, List.cons.injEq] at hhead
      obtain ⟨rfl, -⟩ := hhead
      congr 1
      refine ih hxs hys fun s => ?_
      have hs := h s
      by_cases has : a.span = s <;> simpa [ofSpan, List.filter_cons, has] using hs

/-- A sorted list with all edits in which a list of one span survives has exactly these of the span. -/
lemma ofSpan_eq_of_sublist {es xs : List Edit} (hperm : xs.Perm es) {s : Span} {c : List Edit}
    (hc : c.Perm (ofSpan s es)) (hsub : c.Sublist xs) : ofSpan s xs = c := by
  have hspan : c.filter (·.span = s) = c := by
    refine List.filter_eq_self.2 fun e he => ?_
    have := hc.subset he
    simpa [ofSpan] using (List.mem_filter.1 this).2
  have hfilter : c.Sublist (ofSpan s xs) := hspan ▸ hsub.filter _
  refine (hfilter.eq_of_length ?_).symm
  rw [hc.length_eq]
  exact ((hperm.filter _).length_eq).symm

lemma pairwise_ofSpan (s : Span) (es : List Edit) : (ofSpan s es).Pairwise Precedes := by
  refine List.pairwise_of_forall_mem_list fun a ha b hb => ?_
  have ha' := (List.mem_filter.1 ha).2
  have hb' := (List.mem_filter.1 hb).2
  exact precedes_of_span_eq (by simpa using (of_decide_eq_true ha').trans (of_decide_eq_true hb').symm)

lemma ascending_perm (es : List Edit) : (ascending es).Perm es :=
  (List.mergeSort_perm _ _).trans es.reverse_perm

lemma pairwise_ascending (es : List Edit) : (ascending es).Pairwise Precedes :=
  List.pairwise_mergeSort' Precedes _

/-- Among edits of one span, the last one of the list comes first. -/
lemma ofSpan_ascending (s : Span) (es : List Edit) :
    ofSpan s (ascending es) = (ofSpan s es).reverse := by
  have hsorted : (ofSpan s es.reverse).Pairwise Precedes := pairwise_ofSpan s es.reverse
  have hsub : (ofSpan s es.reverse).Sublist (ascending es) :=
    List.sublist_mergeSort (fun _ _ _ => by simpa using Precedes.trans)
      (fun a b => by simpa using Precedes.total a b) (by simpa using hsorted) List.filter_sublist
  have hreverse : ofSpan s es.reverse = (ofSpan s es).reverse := List.filter_reverse
  rw [← hreverse]
  exact ofSpan_eq_of_sublist (ascending_perm es) (hreverse ▸ List.reverse_perm _) hsub

lemma insertSorted_eq (e : Edit) (es : List Edit) :
    insertSorted e es = es.orderedInsert (fun a b => Precedes b a) e := by
  induction es with
  | nil => rfl
  | cons d es ih => simp only [insertSorted, List.orderedInsert, isBefore_iff, ih]

lemma ordered_eq (es : List Edit) : ordered es = es.insertionSort (fun a b => Precedes b a) := by
  induction es with
  | nil => rfl
  | cons e es ih =>
    rw [List.insertionSort_cons, ← ih, ← insertSorted_eq]
    rfl

/-- Edits are applied from the last to the first one as they stand in the text. -/
theorem ordered_eq_reverse (es : List Edit) : ordered es = (ascending es).reverse := by
  have : Std.Total (fun a b : Edit => Precedes b a) := ⟨fun a b => Precedes.total b a⟩
  have : IsTrans Edit (fun a b => Precedes b a) := ⟨fun _ _ _ h h' => h'.trans h⟩
  rw [ordered_eq, ← List.reverse_eq_iff]
  refine eq_of_sorted ?_ (pairwise_ascending es) fun s => ?_
  · exact List.pairwise_reverse.2 (List.pairwise_insertionSort _ es)
  · have hsub : (ofSpan s es).Sublist (es.insertionSort fun a b => Precedes b a) :=
      List.sublist_insertionSort
        (List.pairwise_reverse.1 (List.filter_reverse ▸ pairwise_ofSpan s es.reverse))
        List.filter_sublist
    rw [ofSpan_ascending, ofSpan, List.filter_reverse]
    exact congrArg List.reverse
      (ofSpan_eq_of_sublist (List.perm_insertionSort _ es) (.refl _) hsub)

/-- The arrangement depends on nothing but the order within each span. -/
theorem ascending_congr {es es' : List Edit} (h : SameTies es es') : ascending es = ascending es' :=
  eq_of_sorted (pairwise_ascending es) (pairwise_ascending es') fun s => by
    rw [ofSpan_ascending, ofSpan_ascending, h.2]

lemma ordered_congr {es es' : List Edit} (h : SameTies es es') : ordered es = ordered es' := by
  rw [ordered_eq_reverse, ordered_eq_reverse, ascending_congr h]

end Retouch.Edit
