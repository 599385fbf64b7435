import Mathlib.Data.List.Chain
import Retouch.Proofs.Diff.Change
import Retouch.Proofs.Edit.Order

/-! Edits of one text, applied one after the other to a text that changes, come to one splice: every
part of the text between edits stays, and each edit's content stands in the place of its span. The
edits are refused exactly if one does not fit the text or ends after the next one starts, and the
check is the only thing that can refuse them. -/
namespace Retouch.Edit

/-- The text between two offsets with the content of each edit in the place of its span. -/
def weave? (t : Text) (pos limit : Nat) : List Edit → Option Text
  | [] => t.slice? pos limit
  | e :: es => do
    let gap ← t.slice? pos e.start
    return gap ++ e.content ++ (← weave? t e.stop limit es)

/-- The span lies within the text, and no character is cut by it. -/
def LiesIn (e : Edit) (t : Text) : Prop :=
  e.start ≤ e.stop ∧ e.stop ≤ t.size ∧ t.isBoundary e.start ∧ t.isBoundary e.stop

/-- Every edit fits the text, and none ends after the next one starts. -/
structure Compatible (t : Text) (es : List Edit) : Prop where
  liesIn : ∀ e ∈ es, e.LiesIn t
  apart : (ascending es).IsChain fun a b => a.stop ≤ b.start

lemma fits_iff {e : Edit} {t : Text} : e.fits t ↔ e.LiesIn t := by
  unfold fits LiesIn
  rw [Text.isSome_slice?_iff]
  constructor
  · rintro ⟨hle, hstart, hstop⟩
    exact ⟨hle, Text.le_size_of_isBoundary hstop, hstart, hstop⟩
  · rintro ⟨hle, -, hstart, hstop⟩
    exact ⟨hle, hstart, hstop⟩

lemma LiesIn.exists_append {e : Edit} {t : Text} (h : e.LiesIn t) :
    ∃ a m b, t = a ++ m ++ b ∧ a.size = e.start ∧ (a ++ m).size = e.stop := by
  obtain ⟨hle, -, hstart, hstop⟩ := h
  exact Text.exists_append_of_isBoundary hstart hstop hle

/-! ## The check -/

lemma check_cons (t : Text) (limit : Nat) (e : Edit) (es : List Edit) :
    check t limit (e :: es) =
      if e.fits t && e.stop ≤ limit then check t e.start es else .skip e.invalid := rfl

lemma check_eq_ok_iff {t : Text} {limit : Nat} {es : List Edit} :
    check t limit es = .ok () ↔ (∀ e ∈ es, e.LiesIn t) ∧ (∀ e ∈ es.head?, e.stop ≤ limit) ∧
      es.IsChain fun b a => a.stop ≤ b.start := by
  induction es generalizing limit with
  | nil => simp [check]
  | cons e es ih =>
    rw [check_cons]
    by_cases h : e.fits t ∧ e.stop ≤ limit
    · rw [if_pos (by simpa using h), ih, List.isChain_cons]
      simp [h.2, fits_iff.1 h.1]
    · rw [if_neg (by simpa using h)]
      simp only [Attempt.skip, reduceCtorEq, false_iff, not_and]
      intro hfits hlimit
      exact absurd ⟨fits_iff.2 (hfits e (by simp)), hlimit e (by simp)⟩ h

lemma check_error {t : Text} {limit : Nat} {es : List Edit} {halt : Halt}
    (h : check t limit es = .error halt) : ∃ e ∈ es, halt = .skip (.badSpan e.start e.stop) := by
  induction es generalizing limit with
  | nil => cases h
  | cons e es ih =>
    rw [check_cons] at h
    split at h
    · obtain ⟨d, hd, rfl⟩ := ih h
      exact ⟨d, List.mem_cons_of_mem e hd, rfl⟩
    · cases h
      exact ⟨e, List.mem_cons_self, rfl⟩

/-- The check accepts the edits, in the order in which they are applied, if they are compatible. -/
lemma check_ordered_iff {t : Text} {es : List Edit} :
    check t t.size (ordered es) = .ok () ↔ Compatible t es := by
  have hmem (e : Edit) : e ∈ ordered es ↔ e ∈ es := by
    rw [ordered_eq_reverse, List.mem_reverse, (ascending_perm es).mem_iff]
  rw [check_eq_ok_iff]
  constructor
  · rintro ⟨hfits, -, hchain⟩
    rw [ordered_eq_reverse, List.isChain_reverse] at hchain
    exact ⟨fun e he => hfits e ((hmem e).2 he), hchain⟩
  · rintro ⟨hfits, hchain⟩
    refine ⟨fun e he => hfits e ((hmem e).1 he), fun e he => ?_, ?_⟩
    · exact (hfits e ((hmem e).1 (List.mem_of_mem_head? he))).2.1
    · rwa [ordered_eq_reverse, List.isChain_reverse]

/-! ## The splice -/

lemma weave?_append (t : Text) (pos limit : Nat) (es : List Edit) (e : Edit) :
    weave? t pos limit (es ++ [e]) = do
      let before ← weave? t pos e.start es
      return before ++ e.content ++ (← t.slice? e.stop limit) := by
  induction es generalizing pos with
  | nil => rfl
  | cons d es ih =>
    simp only [List.cons_append, weave?, ih]
    cases t.slice? pos d.start <;> cases weave? t d.stop e.start es <;>
      cases t.slice? e.stop limit <;> simp

/-- An edit is applied to a text that has changed only after the end of its span. -/
lemma apply_of_liesIn {e : Edit} {a m gap rest : Text} (ha : a.size = e.start)
    (hm : (a ++ m).size = e.stop) :
    e.apply (a ++ m ++ gap ++ rest) = .ok (a ++ e.content ++ gap ++ rest) := by
  have hstart : Text.cut? (a ++ m ++ gap ++ rest) e.start = some (a, m ++ gap ++ rest) :=
    Text.cut?_eq_some.2 ⟨by simp, ha⟩
  have hstop : Text.cut? (a ++ m ++ gap ++ rest) e.stop = some (a ++ m, gap ++ rest) :=
    Text.cut?_eq_some.2 ⟨by simp, hm⟩
  have hle : e.start ≤ e.stop := by
    rw [← ha, ← hm, Text.size_append]
    omega
  rw [apply, splice?, hstart, hstop]
  simp only [hle, ↓reduceIte, Attempt.orSkip, List.append_assoc]

/-- The text before the limit is as it was, so the rest of the edits goes on as if nothing had been
done: what has been done stands after the limit. -/
lemma stepsFrom_of_check {t pre suf : Text} (rest : Text) {es : List Edit} (ht : t = pre ++ suf)
    (h : check t pre.size es = .ok ()) :
    ∃ ss out, stepsFrom (pre ++ rest) es = .ok ss ∧ weave? t 0 pre.size es.reverse = some out ∧
      (ss.getLast?.map (·.after)).getD (pre ++ rest) = out ++ rest := by
  induction es generalizing pre suf rest with
  | nil =>
    refine ⟨[], pre, rfl, ?_, rfl⟩
    have hslice := Text.slice?_append [] pre suf
    rw [ht]
    simpa [weave?] using hslice
  | cons e es ih =>
    rw [check_cons] at h
    split at h
    · next hok =>
      simp only [Bool.and_eq_true, decide_eq_true_eq] at hok
      obtain ⟨a, m, b, htab, ha, hm⟩ := (fits_iff.1 hok.1).exists_append
      obtain ⟨gap, hpre, hb⟩ :=
        Text.exists_append_of_size_le (htab.symm.trans ht) (Nat.le_trans (Nat.le_of_eq hm) hok.2)
      obtain ⟨ss, out, hss, hout, hlast⟩ :=
        ih (e.content ++ gap ++ rest) (by rw [htab, List.append_assoc]) (ha ▸ h)
      have happly : e.apply (pre ++ rest) = .ok (a ++ (e.content ++ gap ++ rest)) := by
        rw [hpre, apply_of_liesIn ha hm]
        simp
      have hgap : t.slice? e.stop pre.size = some gap := by
        rw [ht, hpre, ← hm, Text.size_append (a ++ m) gap]
        exact Text.slice?_append (a ++ m) gap suf
      refine ⟨⟨pre ++ rest, e, a ++ (e.content ++ gap ++ rest)⟩ :: ss, out ++ e.content ++ gap, ?_, ?_, ?_⟩
      · simp only [stepsFrom, happly, hss, bind, Except.bind, pure, Except.pure]
      · rw [List.reverse_cons, weave?_append, ← ha, hout, hgap]
        rfl
      · cases hlast' : ss.getLast? with
        | none =>
          rw [hlast'] at hlast
          simpa [List.getLast?_cons, hlast'] using hlast
        | some s =>
          rw [hlast'] at hlast
          simpa [List.getLast?_cons, hlast'] using hlast
    · cases h

lemma steps_of_compatible {t : Text} {es : List Edit} (h : Compatible t es) :
    ∃ ss out, steps t es = .ok ss ∧ weave? t 0 t.size (ascending es) = some out ∧
      (ss.getLast?.map (·.after)).getD t = out := by
  have hcheck := check_ordered_iff.2 h
  obtain ⟨ss, out, hss, hout, hlast⟩ :=
    stepsFrom_of_check [] (List.append_nil t).symm hcheck
  rw [List.append_nil] at hss hlast
  rw [ordered_eq_reverse, List.reverse_reverse] at hout
  refine ⟨ss, out, ?_, hout, by simpa using hlast⟩
  simp only [steps, hcheck, hss, bind, Except.bind]

lemma apply_of_compatible (r : Reporting) {t : Text} {es : List Edit} (h : Compatible t es) :
    ∃ done, r.apply t es = .ok done ∧ weave? t 0 t.size (ascending es) = some done.text := by
  obtain ⟨ss, out, hss, hout, rfl⟩ := steps_of_compatible h
  obtain ⟨shown, hshown⟩ := r.exists_steps ss
  refine ⟨⟨(ss.getLast?.map (·.after)).getD t, shown⟩, ?_, hout⟩
  simp only [Reporting.apply, hss, hshown, bind, Except.bind, pure, Except.pure]

lemma check_of_apply_error {r : Reporting} {t : Text} {es : List Edit} {halt : Halt}
    (h : r.apply t es = .error halt) : check t t.size (ordered es) = .error halt := by
  cases hcheck : check t t.size (ordered es) with
  | ok _ =>
    obtain ⟨done, hdone, -⟩ := apply_of_compatible r (check_ordered_iff.1 hcheck)
    rw [hdone] at h
    cases h
  | error halt' =>
    simp only [Reporting.apply, steps, hcheck, bind, Except.bind, Except.error.injEq] at h
    rw [h]

lemma exists_apply_iff {r : Reporting} {t : Text} {es : List Edit} :
    (∃ done, r.apply t es = .ok done) ↔ Compatible t es := by
  constructor
  · rintro ⟨done, hdone⟩
    cases hcheck : check t t.size (ordered es) with
    | ok _ => exact check_ordered_iff.1 hcheck
    | error halt =>
      simp [Reporting.apply, steps, hcheck, bind, Except.bind] at hdone
  · intro h
    obtain ⟨done, hdone, -⟩ := apply_of_compatible r h
    exact ⟨done, hdone⟩

/-- A single edit leaves what is before its span and what is after it. -/
lemma exists_apply_one (r : Reporting) (front old rest content : Text) :
    ∃ done, r.apply (front ++ old ++ rest) [⟨front.size, front.size + old.size, content⟩] = .ok done ∧
      done.text = front ++ content ++ rest := by
  have hfits : LiesIn ⟨front.size, front.size + old.size, content⟩ (front ++ old ++ rest) :=
    fits_iff.1 (Option.isSome_of_eq_some (Text.slice?_append front old rest))
  have hcompatible : Compatible (front ++ old ++ rest) [⟨front.size, front.size + old.size, content⟩] :=
    ⟨by simpa using hfits, by simp [ascending]⟩
  obtain ⟨done, hdone, hweave⟩ := apply_of_compatible r hcompatible
  refine ⟨done, hdone, ?_⟩
  have hbefore : (front ++ old ++ rest).slice? 0 front.size = some front := by
    simpa using Text.slice?_append [] front (old ++ rest)
  have hafter : (front ++ old ++ rest).slice? (front.size + old.size) (front ++ old ++ rest).size = some rest := by
    simpa [Nat.add_assoc] using Text.slice?_append (front ++ old) rest []
  have hascending : ascending [⟨front.size, front.size + old.size, content⟩] =
      [⟨front.size, front.size + old.size, content⟩] := by simp [ascending]
  rw [hascending] at hweave
  simp only [weave?, hbefore, hafter, Option.bind_eq_bind, Option.bind_some, Option.pure_def,
    Option.some.injEq] at hweave
  exact hweave.symm

/-- Two edits one after the other leave what is before them, between them and after them. -/
def InTurn (d e : Edit) (t text : Text) : Prop :=
  ∃ front old between old' rest, t = front ++ old ++ between ++ old' ++ rest ∧
    d.span = ⟨front.size, Text.size (front ++ old)⟩ ∧
    e.span = ⟨Text.size (front ++ old ++ between), Text.size (front ++ old ++ between ++ old')⟩ ∧
    text = front ++ d.content ++ between ++ e.content ++ rest

lemma inTurn_of_weave? {d e : Edit} {t text : Text} (hd : d.LiesIn t) (he : e.LiesIn t)
    (h : weave? t 0 t.size [d, e] = some text) : d.InTurn e t text := by
  simp only [weave?, Option.bind_eq_bind, Option.pure_def, Option.bind_eq_some_iff, Option.some.injEq] at h
  obtain ⟨front, hfront, _, ⟨between, hbetween, rest, hrest, rfl⟩, rfl⟩ := h
  obtain ⟨start, after, ht, hempty, hstart⟩ := Text.slice?_eq_some.1 hfront
  obtain rfl := Text.size_eq_zero.1 hempty
  obtain ⟨a, b, ht', ha, hb⟩ := Text.slice?_eq_some.1 hbetween
  obtain ⟨c, tail, ht'', hc, hend⟩ := Text.slice?_eq_some.1 hrest
  obtain rfl : tail = [] := by
    rw [ht'', Text.size_append, Text.size_append] at hend
    exact Text.size_eq_zero.1 (by omega)
  rw [Text.size_nil, Nat.zero_add] at hstart
  rw [List.nil_append] at ht
  rw [List.append_nil] at ht''
  have hle := hd.1
  have hle' := he.1
  rw [List.append_assoc] at ht'
  obtain ⟨old, rfl, -⟩ := Text.exists_append_of_size_le (ht.symm.trans ht') (by omega)
  rw [← List.append_assoc] at ht'
  obtain ⟨old', rfl, -⟩ := Text.exists_append_of_size_le (ht'.symm.trans ht'') (by rw [Text.size_append]; omega)
  refine ⟨front, old, between, old', rest, ht'', ?_, ?_, by simp⟩
  · rw [span, hstart, ha]
  · rw [span, hc, Text.size_append, hb]

/-- Of two edits that are applied, one stands before the other. -/
theorem inTurn_of_apply {r : Reporting} {d e : Edit} {t : Text} {done : Retouched}
    (h : r.apply t [d, e] = .ok done) : d.InTurn e t done.text ∨ e.InTurn d t done.text := by
  have hcompatible := exists_apply_iff.1 ⟨done, h⟩
  obtain ⟨done', hdone, hweave⟩ := apply_of_compatible r hcompatible
  obtain rfl := Except.ok.inj (h.symm.trans hdone)
  have hd := hcompatible.liesIn d List.mem_cons_self
  have he := hcompatible.liesIn e (List.mem_cons_of_mem d List.mem_cons_self)
  have hascending : ascending [d, e] = [d, e] ∨ ascending [d, e] = [e, d] := by
    rw [← List.reverse_inj, ← ordered_eq_reverse, ← @List.reverse_inj _ (ascending _), ← ordered_eq_reverse]
    simp only [ordered, List.foldr_cons, List.foldr_nil, insertSorted]
    split
    · exact .inr rfl
    · exact .inl rfl
  rcases hascending with horder | horder
  · rw [horder] at hweave
    exact .inl (inTurn_of_weave? hd he hweave)
  · rw [horder] at hweave
    exact .inr (inTurn_of_weave? he hd hweave)

/-! ## Ties -/

lemma pair_sublist_ascending {es : List Edit} {a b : Edit} (ha : a ∈ es) (hb : b ∈ es)
    (h : ¬ Precedes b a) : [a, b].Sublist (ascending es) := by
  have hne : b ≠ a := fun hba => h (precedes_of_span_eq (by rw [hba]))
  obtain ⟨xs, ys, hxy⟩ := List.append_of_mem ((ascending_perm es).mem_iff.2 ha)
  have hsorted := pairwise_ascending es
  have hb' := (ascending_perm es).mem_iff.2 hb
  rw [hxy] at hsorted hb' ⊢
  rcases List.mem_append.1 hb' with hmem | hmem
  · exact absurd ((List.pairwise_append.1 hsorted).2.2 b hmem a List.mem_cons_self) h
  · rcases List.mem_cons.1 hmem with hba | hmem
    · exact absurd hba hne
    · exact ((List.singleton_sublist.2 hmem).cons_cons a).trans (List.sublist_append_right xs _)

lemma pair_sublist_ascending_of_span_eq {es : List Edit} {a b : Edit} (h : [a, b].Sublist es)
    (hspan : a.span = b.span) : [b, a].Sublist (ascending es) := by
  have hties : [a, b].Sublist (ofSpan b.span es) := by
    have := h.filter (·.span = b.span)
    simpa [ofSpan, hspan] using this
  have hreverse : [b, a].Sublist (ofSpan b.span es).reverse := List.reverse_sublist.2 hties
  rw [← ofSpan_ascending] at hreverse
  exact hreverse.trans List.filter_sublist

lemma pairwise_of_isChain {es : List Edit} (hle : ∀ e ∈ es, e.start ≤ e.stop)
    (h : es.IsChain fun a b => a.stop ≤ b.start) : es.Pairwise fun a b => a.stop ≤ b.start := by
  induction es with
  | nil => exact .nil
  | cons e es ih =>
    have hes := ih (fun d hd => hle d (List.mem_cons_of_mem e hd)) h.tail
    refine List.pairwise_cons.2 ⟨fun x hx => ?_, hes⟩
    cases es with
    | nil => simp at hx
    | cons d es =>
      have hed : e.stop ≤ d.start := (List.isChain_cons_cons.1 h).1
      rcases List.mem_cons.1 hx with rfl | hx
      · exact hed
      · have hd := hle d (by simp)
        have hdx := (List.pairwise_cons.1 hes).1 x hx
        omega

lemma not_compatible_of_span_eq {t : Text} {es : List Edit} {a b : Edit} (h : [a, b].Sublist es)
    (hspan : a.span = b.span) (hlt : a.start < a.stop) : ¬ Compatible t es := by
  rintro ⟨hfits, hchain⟩
  have hpairwise := pairwise_of_isChain
    (fun e he => (hfits e ((ascending_perm es).mem_iff.1 he)).1) hchain
  have hba := List.pairwise_iff_forall_sublist.1 hpairwise
    (pair_sublist_ascending_of_span_eq h hspan)
  simp only [span, Span.mk.injEq] at hspan
  omega

/-- Edits of one text are applied exactly if they are compatible, and then all at once: two edits of
one span that is not empty clash, an insertion stands before what replaces the text after it, and of
two insertions at one place the later one of the list comes first. Only the order of edits of one
span counts. What refuses edits is the check, and it names one of them. -/
theorem apply_iff_weave (r : Reporting) (t : Text) (es : List Edit) :
    ((∃ done, r.apply t es = .ok done) ↔ Compatible t es) ∧
    (∀ done, r.apply t es = .ok done → weave? t 0 t.size (ascending es) = some done.text) ∧
    (∀ a b, [a, b].Sublist es → a.span = b.span → a.start < a.stop →
      ¬ ∃ done, r.apply t es = .ok done) ∧
    (∀ a ∈ es, ∀ b ∈ es, a.start = a.stop → b.start = a.start → b.start < b.stop →
      [a, b].Sublist (ascending es)) ∧
    (∀ a b, [a, b].Sublist es → a.span = b.span → [b, a].Sublist (ascending es)) ∧
    (∀ es', SameTies es es' → r.apply t es' = r.apply t es) ∧
    (∀ halt, r.apply t es = .error halt → check t t.size (ordered es) = .error halt ∧
      ∃ e ∈ es, halt = .skip (.badSpan e.start e.stop)) := by
  refine ⟨exists_apply_iff, fun done hdone => ?_, fun a b hab hspan hlt hdone => ?_,
    fun a ha b hb hempty hstart hlt => ?_, fun a b => pair_sublist_ascending_of_span_eq,
    fun es' hties => ?_, fun halt hhalt => ?_⟩
  · obtain ⟨done', hdone', hweave⟩ := apply_of_compatible r (exists_apply_iff.1 ⟨done, hdone⟩)
    rw [hdone] at hdone'
    cases hdone'
    exact hweave
  · exact not_compatible_of_span_eq hab hspan hlt (exists_apply_iff.1 hdone)
  · refine pair_sublist_ascending ha hb ?_
    unfold Precedes
    omega
  · rw [Reporting.apply, Reporting.apply, steps, steps, ordered_congr hties]
  · have hcheck := check_of_apply_error hhalt
    obtain ⟨e, he, rfl⟩ := check_error hcheck
    rw [ordered_eq_reverse, List.mem_reverse, (ascending_perm es).mem_iff] at he
    exact ⟨hcheck, e, he, rfl⟩

end Retouch.Edit
