import Retouch.Literal.Render
import Retouch.Proofs.Literal.Reader
import Retouch.Proofs.SortedMap

/-! The characters that divide a literal: braces and quotes. Neither the identifiers that variables
are replaced by nor the escapes of other alphabets hold any, so an expression keeps its marks, and
with them where it ends, however it is written. -/
namespace Retouch.Literal

/-- A brace or a quote. -/
def isMark (c : Char) : Bool := ['\x7b', '\x7d', '"', '\'', '\x60'].contains c

/-- The marks of a text, in order. -/
def marks (t : Text) : Text := t.filter isMark

/-- How deep within braces a text ends that starts at some depth, if it does not leave the outermost. -/
def depthAfter? (depth : Nat) : Text → Option Nat
  | [] => some depth
  | c :: t =>
    if c = '\x7d' then if depth = 0 then none else depthAfter? (depth - 1) t
    else depthAfter? (if c = '\x7b' then depth + 1 else depth) t

/-- Every brace has its partner, and none is closed before it is opened. -/
def Balanced (expr : Text) : Prop := depthAfter? 0 expr = some 0

/-- Variables are named by words, and stand for identifiers that hold nothing else but dollar signs. -/
def Proper (identifiers : Identifiers) : Prop :=
  ∀ e ∈ identifiers.entries, e.1 ≠ [] ∧ (∀ c ∈ e.1, isWord c) ∧
    e.2 ≠ [] ∧ ∀ c ∈ e.2, c = '$' ∨ isWord c

lemma depthAfter?_marks (depth : Nat) (t : Text) :
    depthAfter? depth (marks t) = depthAfter? depth t := by
  induction t generalizing depth with
  | nil => rfl
  | cons c t ih =>
    by_cases hc : isMark c
    · rw [marks, List.filter_cons_of_pos hc]
      simp only [depthAfter?]
      split
      · split
        · rfl
        · exact ih _
      · exact ih _
    · have hopen : c ≠ '\x7b' := by rintro rfl; exact hc (by decide)
      have hclose : c ≠ '\x7d' := by rintro rfl; exact hc (by decide)
      rw [marks, List.filter_cons_of_neg hc]
      simp only [depthAfter?, hopen, hclose, ↓reduceIte]
      exact ih _

lemma balanced_of_marks_eq {s t : Text} (h : marks s = marks t) (ht : Balanced t) : Balanced s := by
  unfold Balanced at *
  rw [← depthAfter?_marks, h, depthAfter?_marks, ht]

lemma mem_iff_of_marks_eq {s t : Text} (h : marks s = marks t) {c : Char} (hc : isMark c) :
    c ∈ s ↔ c ∈ t := by
  have hs : c ∈ marks s ↔ c ∈ s := by simp [marks, hc]
  have ht : c ∈ marks t ↔ c ∈ t := by simp [marks, hc]
  rw [← hs, h, ht]

lemma isMark_of_quote? {style : Style} {quote : Char} (h : style.quote? = some quote) :
    isMark quote := by
  cases style <;> simp only [Style.quote?, Option.some.injEq, reduceCtorEq] at h <;> subst h <;> decide

/-! ## Variables -/

lemma not_isMark_of_isWord {c : Char} (h : isWord c) : ¬ isMark c := by
  intro hmark
  have hc : c ∈ ['\x7b', '\x7d', '"', '\'', '\x60'] := by simpa [isMark] using hmark
  have hnone : ['\x7b', '\x7d', '"', '\'', '\x60'].all (!isWord ·) = true := by decide
  have hword := List.all_eq_true.1 hnone c hc
  rw [h] at hword
  exact Bool.false_ne_true hword

lemma marks_eq_nil {t : Text} (h : ∀ c ∈ t, ¬ isMark c) : marks t = [] :=
  List.filter_eq_nil_iff.2 h

/-- A replacement of spans keeps the marks if the replacement of every text does. -/
lemma marks_replaceSpans {new : Text → Text} (hnew : ∀ found, marks (new found) = marks found)
    (pos : Nat) (spans : List Span) (t : Text) :
    marks (Pattern.replaceSpans new pos spans t) = marks t := by
  induction spans generalizing pos t with
  | nil => rfl
  | cons s spans ih =>
    unfold Pattern.replaceSpans
    split
    · rfl
    · next before t' hbefore =>
      obtain ⟨rfl, -⟩ := Text.cut?_eq_some.1 hbefore
      split
      · rfl
      · next found t'' hfound =>
        obtain ⟨rfl, -⟩ := Text.cut?_eq_some.1 hfound
        have hrest := ih s.stop t''
        have hword := hnew found
        simp only [marks, List.filter_append, List.append_assoc] at hrest hword ⊢
        rw [hrest, hword]

/-- An expression keeps its marks when identifiers take the place of variables. -/
theorem marks_substitute {identifiers : Identifiers} (h : Proper identifiers) (expr : Text) :
    marks (substitute identifiers expr) = marks expr := by
  unfold substitute
  split
  · rfl
  · refine marks_replaceSpans (fun found => ?_) _ _ _
    cases hget : identifiers.get? found with
    | none => rfl
    | some value =>
      obtain ⟨-, hname, -, hvalue⟩ := h _ (SortedMap.mem_of_get? hget)
      rw [Option.getD_some, marks_eq_nil fun c hc => not_isMark_of_isWord (hname c hc)]
      refine marks_eq_nil fun c hc => ?_
      rcases hvalue c hc with rfl | hword
      · decide
      · exact not_isMark_of_isWord hword

/-! ## Escapes -/

lemma not_isMark_digitChar : ∀ k < 16, ¬ isMark k.digitChar := by decide

lemma marks_unitEscape {u : Nat} (h : u < 0x10000) : marks (Text.unitEscape u) = [] := by
  refine marks_eq_nil fun c hc => ?_
  simp only [Text.unitEscape, Text.hexPadded_four h, List.mem_cons, List.not_mem_nil, or_false] at hc
  rcases hc with rfl | rfl | rfl | rfl | rfl | rfl
  · decide
  · decide
  all_goals exact not_isMark_digitChar _ (by omega)

lemma isMark_imp_ascii {c : Char} (h : isMark c) : c.toNat < 128 := by
  have hc : c ∈ ['\x7b', '\x7d', '"', '\'', '\x60'] := by simpa [isMark] using h
  have hall : ['\x7b', '\x7d', '"', '\'', '\x60'].all (·.toNat < 128) = true := by decide
  exact of_decide_eq_true (List.all_eq_true.1 hall c hc)

lemma toAscii_cons (c : Char) (t : Text) : toAscii (c :: t) =
    (if c.toNat < 128 then [c] else (Text.units16 c).flatMap Text.unitEscape) ++ toAscii t :=
  List.flatMap_cons

@[simp] lemma toAscii_append (s t : Text) : toAscii (s ++ t) = toAscii s ++ toAscii t :=
  List.flatMap_append

/-- An expression keeps its marks when characters beyond ASCII are escaped. -/
theorem marks_toAscii (t : Text) : marks (toAscii t) = marks t := by
  induction t with
  | nil => rfl
  | cons c t ih =>
    rw [toAscii_cons, marks, List.filter_append, ← marks, ← marks, ih]
    by_cases hc : c.toNat < 128
    · rw [if_pos hc]
      simp only [marks, List.filter_cons, List.filter_nil]
      split <;> rfl
    · have hmark : ¬ isMark c := fun h => hc (isMark_imp_ascii h)
      have hunits : marks ((Text.units16 c).flatMap Text.unitEscape) = [] := by
        rw [marks, List.filter_flatMap, List.flatMap_eq_nil_iff]
        exact fun u hu => marks_unitEscape (Text.lt_of_mem_units16 hu)
      rw [if_neg hc, hunits, List.nil_append]
      exact (List.filter_cons_of_neg hmark).symm

/-- Text as it stands in a literal, all ASCII if `escaped`. -/
def inAlphabet (escaped : Bool) (t : Text) : Text := if escaped then toAscii t else t

lemma marks_inAlphabet (escaped : Bool) (t : Text) : marks (inAlphabet escaped t) = marks t := by
  cases escaped
  · rfl
  · exact marks_toAscii t

@[simp] lemma inAlphabet_append (escaped : Bool) (s t : Text) :
    inAlphabet escaped (s ++ t) = inAlphabet escaped s ++ inAlphabet escaped t := by
  cases escaped
  · rfl
  · exact toAscii_append s t

/-- ASCII is written as it is. -/
lemma inAlphabet_eq_self (escaped : Bool) {t : Text} (h : ∀ c ∈ t, c.toNat < 128) :
    inAlphabet escaped t = t := by
  cases escaped
  · rfl
  · induction t with
    | nil => rfl
    | cons c t ih =>
      have hrest : toAscii t = t := ih fun x hx => h x (List.mem_cons_of_mem c hx)
      show toAscii (c :: t) = c :: t
      rw [toAscii_cons, if_pos (h c List.mem_cons_self), hrest]
      rfl

lemma inAlphabet_singleton {c : Char} (escaped : Bool) (h : c.toNat < 128) :
    inAlphabet escaped [c] = [c] :=
  inAlphabet_eq_self escaped (by simpa using h)

end Retouch.Literal
