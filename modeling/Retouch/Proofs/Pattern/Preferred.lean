import Retouch.Proofs.Pattern.Search
import Retouch.Proofs.Text.Boundary

/-! The preferred way through a pattern. Of the cursors that a pattern leads to, the first one is kept
in front by all that follows, as long as it can go on; so a match is found by going the preferred way
at every step. -/
namespace Retouch

namespace Cursor

/-- The cursor between two parts of a text. -/
def between (front rest : Text) (captures : List Span) : Cursor :=
  ⟨front.getLast?, front.size, rest, captures⟩

variable {front rest : Text} {captures : List Span}

lemma next?_between (x : Char) :
    (between front (x :: rest) captures).next? =
      some (x, between (front ++ [x]) rest captures) := by
  simp [next?, between]

lemma after?_between {t : Text} {d : Cursor} :
    (between front rest captures).after? t = some d ↔
      ∃ rest', rest = t ++ rest' ∧ d = between (front ++ t) rest' captures := by
  induction t generalizing front rest with
  | nil => simp [after?, eq_comm]
  | cons x t ih =>
    cases rest with
    | nil => simp [after?, next?, between]
    | cons y rest =>
      rw [after?, next?_between]
      dsimp only
      split
      · next hxy =>
        rw [ih, hxy]
        simp
      · next hxy =>
        simp only [List.cons_append, List.cons.injEq, reduceCtorEq, false_iff, not_exists, not_and]
        rintro rest' ⟨rfl, -⟩
        exact absurd rfl hxy

lemma after?_between_append (t : Text) :
    (between front (t ++ rest) captures).after? t = some (between (front ++ t) rest captures) :=
  after?_between.2 ⟨rest, rfl, rfl⟩

end Cursor

namespace Pattern

open Cursor

variable {p q : Pattern} {ps qs : List Pattern} {c d e : Cursor} {front rest : Text}
  {captures : List Span}

/-- From a cursor that stands first, the pattern leads to another one that stands first. -/
def Prefers (p : Pattern) (c d : Cursor) : Prop := ∀ cs, (p.advance (c :: cs)).head? = some d

/-- Patterns one after the other, each by its preferred way. -/
inductive Follows : List Pattern → Cursor → Cursor → Prop
  | nil (c : Cursor) : Follows [] c c
  | cons {p : Pattern} {ps : List Pattern} {c d e : Cursor} :
    p.Prefers c d → Follows ps d e → Follows (p :: ps) c e

lemma head?_distinct (cs : List Cursor) : (distinct cs).head? = cs.head? := by
  cases cs with
  | nil => rfl
  | cons c cs => rw [distinct_cons, List.head?_cons, List.head?_cons]

lemma head?_spread {step : Cursor → List Cursor} (h : (step c).head? = some d)
    (cs : List Cursor) : (spread step (c :: cs)).head? = some d := by
  cases cs with
  | nil => exact h
  | cons c' cs =>
    rw [spread, head?_distinct, List.flatMap_cons, List.head?_append, h]
    · rfl
    · nofun

lemma prefers_literal (t : Text) :
    (literal t).Prefers (between front (t ++ rest) captures) (between (front ++ t) rest captures) := by
  intro cs
  rw [advance, List.filterMap_cons, after?_between_append]
  rfl

lemma prefers_lineStart (h : c.isLineStart = true) : lineStart.Prefers c c := by
  intro cs
  rw [advance, List.filter_cons_of_pos h]
  rfl

lemma Prefers.seq (hp : p.Prefers c d) (hq : q.Prefers d e) : (p.seq q).Prefers c e := by
  intro cs
  obtain ⟨ds, hds⟩ := List.head?_eq_some_iff.1 (hp cs)
  rw [advance, hds]
  exact hq ds

lemma Prefers.altLeft (hp : p.Prefers c d) : (p.alt q).Prefers c d := by
  refine head?_spread ?_
  rw [head?_distinct, List.head?_append, hp []]
  rfl

lemma Prefers.altRight (hp : p.advance [c] = []) (hq : q.Prefers c d) : (p.alt q).Prefers c d := by
  refine head?_spread ?_
  rw [head?_distinct, hp, List.nil_append, hq []]

/-- What is gone through is captured. -/
lemma Prefers.capture {t : Text} {captures' : List Span}
    (hp : p.Prefers (between front (t ++ rest) captures) (between (front ++ t) rest captures')) :
    p.capture.Prefers (between front (t ++ rest) captures)
      (between (front ++ t) rest (captures' ++ [⟨front.size, front.size + t.size⟩])) := by
  refine head?_spread ?_
  rw [List.head?_map, hp []]
  simp [between, record]

/-- The farthest cursor of a run stands first. It is reached after all of the run, the least number of
members being a part of it. -/
lemma head?_run_go {cls : CharClass} {c : Cursor} {t : Text} {least : Nat} {most : Option Nat}
    {found : List Cursor} (ht : ∀ x ∈ t, cls.contains x = true) (hleast : least ≤ t.length)
    (hmost : ∀ n, most = some n → t.length ≤ n)
    (hend : most = some t.length ∨ ∀ x ∈ rest.head?, cls.contains x = false)
    (hfound : least = 0 → found.head? = some (between front (t ++ rest) c.captures)) :
    (run.go cls c (t ++ rest) front.size least most found).head? =
      some (between (front ++ t) rest c.captures) := by
  induction t generalizing front least most found with
  | nil =>
    have hhead := hfound (Nat.le_zero.1 hleast)
    rw [List.append_nil]
    cases rest with
    | nil => exact hhead
    | cons x rest =>
      have hstop : ¬(most ≠ some 0 && cls.contains x) = true := by
        rcases hend with rfl | hend
        · simp
        · simp [hend x rfl]
      rw [List.nil_append, run.go, if_neg hstop]
      exact hhead
  | cons x t ih =>
    have hgo : (most ≠ some 0 && cls.contains x) = true := by
      rw [ht x List.mem_cons_self, Bool.and_true, decide_eq_true_eq]
      rintro rfl
      exact Nat.not_succ_le_zero _ (hmost 0 rfl)
    have hcursor : (⟨some x, front.size + x.utf8Size, t ++ rest, c.captures⟩ : Cursor) =
        between (front ++ [x]) (t ++ rest) c.captures := by
      simp [between]
    have hsize : front.size + x.utf8Size = Text.size (front ++ [x]) := by simp
    rw [List.cons_append, run.go, if_pos hgo]
    dsimp only
    rw [hcursor, hsize, ih (fun y hy => ht y (List.mem_cons_of_mem x hy))]
    · rw [List.append_assoc, List.singleton_append]
    · rw [List.length_cons] at hleast
      omega
    · intro n hn
      obtain ⟨m, rfl, rfl⟩ := Option.map_eq_some_iff.1 hn
      have := hmost m rfl
      rw [List.length_cons] at this
      omega
    · rcases hend with rfl | hend
      · exact .inl rfl
      · exact .inr hend
    · intro hzero
      rw [if_pos (by omega), List.head?_cons]

/-- As many members as there are, up to the end of the run or to the most that is allowed. -/
lemma prefers_many {cls : CharClass} {least : Nat} {most : Option Nat} {t : Text}
    (ht : ∀ x ∈ t, cls.contains x = true) (hleast : least ≤ t.length)
    (hmost : ∀ n, most = some n → t.length ≤ n)
    (hend : most = some t.length ∨ ∀ x ∈ rest.head?, cls.contains x = false) :
    (many cls least most).Prefers (between front (t ++ rest) captures)
      (between (front ++ t) rest captures) := by
  refine head?_spread (head?_run_go ht hleast hmost hend fun hzero => ?_)
  rw [if_pos hzero]
  rfl

lemma Follows.append (h : Follows ps c d) (h' : Follows qs d e) : Follows (ps ++ qs) c e := by
  induction h with
  | nil c => exact h'
  | cons hp hps ih => exact .cons hp (ih h')

lemma Follows.all (h : Follows ps c d) : (all ps).Prefers c d := by
  induction h with
  | nil c =>
    intro cs
    simp [Pattern.all, advance, after?]
  | @cons p ps c d e hp hps ih =>
    cases hps with
    | nil => exact hp
    | cons hq hqs => exact hp.seq ih

lemma matchHere?_of_follows {t : Text} {captures : List Span}
    (h : Follows ps (between front (t ++ rest) []) (between (front ++ t) rest captures)) :
    (all ps).matchHere? (between front (t ++ rest) []) =
      some ⟨⟨front.size, front.size + t.size⟩, captures⟩ := by
  rw [matchHere?, h.all []]
  simp [between]

/-! ## The first match -/

lemma exists_everywhere_append (p : Pattern) (front t rest : Text) :
    ∃ ms, p.everywhere front.getLast? front.size (t ++ rest) =
        ms ++ p.everywhere (front ++ t).getLast? (Text.size (front ++ t)) rest ∧
      ∀ m ∈ ms, m.span.start < Text.size (front ++ t) := by
  induction t generalizing front with
  | nil => exact ⟨[], by simp, by simp⟩
  | cons x t ih =>
    obtain ⟨ms, hms, hlt⟩ := ih (front ++ [x])
    rw [List.append_assoc, List.singleton_append] at hms hlt
    have hlast : (front ++ [x]).getLast? = some x := by simp
    have hsize : Text.size (front ++ [x]) = front.size + x.utf8Size := by simp
    rw [hlast, hsize] at hms
    refine ⟨(p.matchHere? ⟨front.getLast?, front.size, x :: (t ++ rest), []⟩).toList ++ ms, ?_, ?_⟩
    · rw [List.cons_append, everywhere, hms, List.append_assoc]
    · intro m hm
      rcases List.mem_append.1 hm with hm | hm
      · rw [start_of_matchHere? (Option.mem_toList.1 hm), Text.size_append, Text.size_cons]
        have := x.utf8Size_pos
        dsimp only
        omega
      · exact hlt m hm

lemma exists_eq_append_cons_iff {x : Char} {t : Text} {P : Text → Text → Prop} :
    (∃ s rest, x :: t = s ++ rest ∧ P s rest) ↔
      P [] (x :: t) ∨ ∃ s rest, t = s ++ rest ∧ P (x :: s) rest := by
  constructor
  · rintro ⟨s, rest, ht, h⟩
    cases s with
    | nil => exact .inl (ht ▸ h)
    | cons y s =>
      obtain ⟨rfl, htail⟩ := List.cons.inj ht
      exact .inr ⟨s, rest, htail, h⟩
  · rintro (h | ⟨s, rest, rfl, h⟩)
    · exact ⟨[], x :: t, rfl, h⟩
    · exact ⟨x :: s, rest, rfl, h⟩

lemma forall_eq_append_cons_iff {x : Char} {t : Text} {P : Text → Text → Prop} :
    (∀ s rest, x :: t = s ++ rest → P s rest) ↔
      P [] (x :: t) ∧ ∀ s rest, t = s ++ rest → P (x :: s) rest := by
  constructor
  · exact fun h => ⟨h [] _ rfl, fun s rest ht => h (x :: s) rest (by rw [ht]; rfl)⟩
  · rintro ⟨hnil, hcons⟩ s rest ht
    cases s with
    | nil =>
      obtain rfl : x :: t = rest := ht
      exact hnil
    | cons y s =>
      obtain ⟨rfl, htail⟩ := List.cons.inj ht
      exact hcons s rest htail

/-- The first match is where no place before has one. -/
lemma head?_everywhere_eq_some_iff {m : Match} {t : Text} :
    (p.everywhere front.getLast? front.size t).head? = some m ↔
      ∃ s rest, t = s ++ rest ∧ p.matchHere? (between (front ++ s) rest []) = some m ∧
        ∀ s' rest', t = s' ++ rest' → s'.length < s.length →
          p.matchHere? (between (front ++ s') rest' []) = none := by
  have hhere (front t : Text) : p.matchHere? ⟨front.getLast?, front.size, t, []⟩ =
      p.matchHere? (between (front ++ []) t []) := by rw [List.append_nil, between]
  induction t generalizing front with
  | nil =>
    rw [everywhere, Option.head?_toList, hhere]
    constructor
    · exact fun h => ⟨[], [], rfl, h, by simp⟩
    · rintro ⟨s, rest, ht, h, -⟩
      obtain ⟨rfl, rfl⟩ := List.append_eq_nil_iff.1 ht.symm
      exact h
  | cons x t ih =>
    have hlater := @ih (front ++ [x])
    simp only [List.append_assoc, List.singleton_append, List.getLast?_concat, Text.size_append, Text.size_cons,
      Text.size_nil, Nat.add_zero] at hlater
    rw [everywhere, hhere, exists_eq_append_cons_iff]
    simp only [forall_eq_append_cons_iff, List.length_nil, List.length_cons, Nat.not_lt_zero, Nat.zero_lt_succ,
      Nat.add_lt_add_iff_right, false_imp_iff, implies_true, and_true, true_imp_iff]
    cases hm : p.matchHere? (between (front ++ []) (x :: t) []) with
    | some m' => simp
    | none => simp [hlater]

/-- A match that no other one starts before is found first. -/
theorem head?_matchesIn {m : Match} (h : p.matchHere? (between front rest []) = some m)
    (hfirst : ∀ m' ∈ p.matchesIn (front ++ rest), front.size ≤ m'.span.start) :
    (p.matchesIn (front ++ rest)).head? = some m := by
  obtain ⟨ms, hms, hlt⟩ := exists_everywhere_append p [] front rest
  have hhere : (p.everywhere front.getLast? front.size rest).head? = some m := by
    cases rest with
    | nil => rw [everywhere, ← between, h]; rfl
    | cons x rest => rw [everywhere, ← between, h]; rfl
  have hhead : (p.matchesIn (front ++ rest)).head? =
      (ms ++ p.everywhere front.getLast? front.size rest).head? := by
    rw [← List.nil_append front, ← hms]
    exact head?_matchesFrom p none 0 (front ++ rest)
  cases ms with
  | nil => rw [hhead, List.nil_append, hhere]
  | cons m' ms =>
    have hstart := hfirst m' (List.mem_of_mem_head? hhead)
    have := hlt m' List.mem_cons_self
    rw [List.nil_append] at this
    omega

end Pattern
end Retouch
