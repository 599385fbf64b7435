import Mathlib.Tactic.Lemma
import Retouch.Pattern.Basic

/-! Where matches start. The first match of a search is the first of the matches that the positions of
the text have each on its own, since until then no position is passed over. A search in a text that
starts elsewhere has the same matches, moved. -/
namespace Retouch

namespace Pattern

variable {p : Pattern} {previous : Option Char} {pos : Nat} {t : Text}

/-- The match at each position that has one, whether or not the matches overlap. -/
def everywhere (p : Pattern) (previous : Option Char) (pos : Nat) : Text → List Match
  | [] => (p.matchHere? ⟨previous, pos, [], []⟩).toList
  | c :: rest =>
    (p.matchHere? ⟨previous, pos, c :: rest, []⟩).toList ++ p.everywhere c (pos + c.utf8Size) rest

lemma start_of_matchHere? {c : Cursor} {m : Match} (h : p.matchHere? c = some m) :
    m.span.start = c.pos := by
  obtain ⟨d, -, rfl⟩ := Option.map_eq_some_iff.1 h
  rfl

lemma le_start_of_mem_everywhere {m : Match} (h : m ∈ p.everywhere previous pos t) :
    pos ≤ m.span.start := by
  induction t generalizing previous pos with
  | nil => exact Nat.le_of_eq (start_of_matchHere? (Option.mem_toList.1 h)).symm
  | cons c rest ih =>
    rcases List.mem_append.1 h with hhere | hlater
    · exact Nat.le_of_eq (start_of_matchHere? (Option.mem_toList.1 hhere)).symm
    · exact Nat.le_trans (Nat.le_add_right _ _) (ih hlater)

/-- Before the first match, every position is tried. -/
lemma accepted_none : matchesFrom.accepted p none previous pos t =
    p.matchHere? ⟨previous, pos, t, []⟩ := by
  cases h : p.matchHere? ⟨previous, pos, t, []⟩ <;> simp [matchesFrom.accepted, h, Option.filter]

theorem head?_matchesFrom (p : Pattern) (previous : Option Char) (pos : Nat) (t : Text) :
    (p.matchesFrom none previous pos t).head? = (p.everywhere previous pos t).head? := by
  induction t generalizing previous pos with
  | nil => rw [matchesFrom, accepted_none, everywhere]
  | cons c rest ih =>
    rw [matchesFrom, accepted_none, everywhere]
    cases p.matchHere? ⟨previous, pos, c :: rest, []⟩ with
    | none => exact ih _ _
    | some m => rfl

lemma find?_eq (p : Pattern) (t : Text) : p.find? t = (p.everywhere none 0 t).head? :=
  head?_matchesFrom p none 0 t

end Pattern

/-! ## Moved cursors -/

namespace Cursor

/-- The cursor in a text that starts at another position. -/
def move (offset : Nat) (c : Cursor) : Cursor :=
  { c with pos := offset + c.pos, captures := c.captures.map (·.shift offset) }

variable (k : Nat) (c : Cursor)

lemma next?_move : (c.move k).next? = c.next?.map fun (x, d) => (x, d.move k) := by
  unfold next? move
  cases c.rest with
  | nil => rfl
  | cons x rest => simp [Nat.add_assoc]

lemma after?_move (t : Text) : (c.move k).after? t = (c.after? t).map (move k) := by
  induction t generalizing c with
  | nil => rfl
  | cons x t ih =>
    rw [after?, after?, next?_move]
    cases c.next? with
    | none => rfl
    | some d =>
      dsimp only [Option.map_some]
      split
      · exact ih d.2
      · rfl

lemma run_go_move (cls : CharClass) (rest : Text) (pos least : Nat) (most : Option Nat)
    (found : List Cursor) :
    run.go cls (c.move k) rest (k + pos) least most (found.map (move k)) =
      (run.go cls c rest pos least most found).map (move k) := by
  induction rest generalizing pos least most found with
  | nil => rfl
  | cons x rest ih =>
    simp only [run.go]
    split
    · rw [← ih (pos + x.utf8Size), Nat.add_assoc]
      split <;> rfl
    · rfl

lemma run_move (cls : CharClass) (least : Nat) (most : Option Nat) :
    (c.move k).run cls least most = (c.run cls least most).map (move k) := by
  rw [run, run, ← run_go_move]
  split <;> rfl

lemma record_move (start : Nat) : (c.move k).record (k + start) = (c.record start).move k := by
  simp [record, move, Span.shift]

end Cursor

namespace Pattern

open Cursor

variable (k : Nat)

lemma distinct_cons (c : Cursor) (cs : List Cursor) :
    distinct (c :: cs) = c :: distinct (cs.filter (·.pos != c.pos)) := by
  have hfilter : (fun d : Cursor => decide ((d.pos == c.pos) = false)) = (·.pos != c.pos) := by
    funext d
    cases h : d.pos == c.pos <;> simp [bne, h]
  rw [distinct, List.eraseDupsBy_cons, hfilter, distinct]

/-- Induction along the list that is left: what stands where the first cursor does is dropped. -/
@[elab_as_elim]
lemma distinct_induction {motive : List Cursor → Prop} (nil : motive [])
    (cons : ∀ c cs, motive (cs.filter (·.pos != c.pos)) → motive (c :: cs)) (cs : List Cursor) :
    motive cs := by
  induction hlength : cs.length using Nat.strongRecOn generalizing cs with
  | ind n ih =>
    cases cs with
    | nil => exact nil
    | cons c cs =>
      have hshort : (cs.filter (·.pos != c.pos)).length < n := by
        rw [← hlength, List.length_cons]
        exact Nat.lt_succ_of_le (List.length_filter_le _ _)
      exact cons c cs (ih _ hshort _ rfl)

lemma distinct_map_move (cs : List Cursor) :
    distinct (cs.map (move k)) = (distinct cs).map (move k) := by
  induction cs using distinct_induction with
  | nil => rfl
  | cons c cs ih =>
    have hkeep : ((·.pos != (c.move k).pos) ∘ move k : Cursor → Bool) = (·.pos != c.pos) := by
      funext d
      rw [Bool.eq_iff_iff]
      simp [move]
    rw [List.map_cons, distinct_cons, distinct_cons, List.filter_map, hkeep, ih, List.map_cons]

lemma spread_map_move {step : Cursor → List Cursor}
    (hstep : ∀ c, step (c.move k) = (step c).map (move k)) (cs : List Cursor) :
    spread step (cs.map (move k)) = (spread step cs).map (move k) := by
  have hall (ds : List Cursor) : distinct ((ds.map (move k)).flatMap step) =
      (distinct (ds.flatMap step)).map (move k) := by
    rw [← distinct_map_move, List.flatMap_map, List.map_flatMap]
    congr 2
    funext c
    exact hstep c
  match cs with
  | [] => exact hall []
  | [c] => exact hstep c
  | c :: d :: ds => exact hall (c :: d :: ds)

/-- What a pattern does depends on the text alone and not on where it starts. -/
theorem advance_map_move (p : Pattern) (cs : List Cursor) :
    p.advance (cs.map (move k)) = (p.advance cs).map (move k) := by
  induction p generalizing cs with
  | literal t =>
    rw [advance, advance, List.filterMap_map, List.map_filterMap]
    congr 1
    funext c
    exact after?_move k c t
  | many cls least most => exact spread_map_move k (fun c => run_move k c cls least most) cs
  | seq p q ihp ihq =>
    rw [advance, advance, ihp]
    cases advance p cs with
    | nil => rfl
    | cons d ds => exact ihq (d :: ds)
  | alt p q ihp ihq =>
    refine spread_map_move k (fun c => ?_) cs
    have hp := ihp [c]
    have hq := ihq [c]
    rw [List.map_singleton] at hp hq
    rw [hp, hq, ← List.map_append, distinct_map_move]
  | capture p ih =>
    refine spread_map_move k (fun c => ?_) cs
    have hp := ih [c]
    rw [List.map_singleton] at hp
    rw [hp, List.map_map, List.map_map]
    congr 1
    funext d
    exact record_move k d c.pos
  | lineStart =>
    rw [advance, advance, List.filter_map]
    rfl
  | wordEdge =>
    rw [advance, advance, List.filter_map]
    rfl

lemma matchHere?_move (p : Pattern) (c : Cursor) :
    p.matchHere? (c.move k) = (p.matchHere? c).map (·.shift k) := by
  rw [matchHere?, matchHere?, ← List.map_singleton, advance_map_move, List.head?_map, Option.map_map,
    Option.map_map]
  rfl

theorem everywhere_move (p : Pattern) (previous : Option Char) (pos : Nat) (t : Text) :
    p.everywhere previous (k + pos) t = (p.everywhere previous pos t).map (·.shift k) := by
  induction t generalizing previous pos with
  | nil =>
    rw [everywhere, everywhere, ← Option.toList_map, ← matchHere?_move]
    rfl
  | cons c rest ih =>
    rw [everywhere, everywhere, List.map_append, ← Option.toList_map, ← matchHere?_move, ← ih,
      Nat.add_assoc]
    rfl

end Pattern
end Retouch
