import Retouch.Proofs.Pattern.Preferred

/-! Choices among literals. Of the literals that stand at a position, each one leads to its end, and no
position is lost where two of them lead to the same one. -/
namespace Retouch

namespace Pattern

open Cursor

variable {c d : Cursor} {t : Text} {ts : List Text} {front rest : Text}

lemma advance_nil (p : Pattern) : p.advance [] = [] := by
  induction p with
  | literal t => rfl
  | many cls least most => rfl
  | seq p q ihp ihq => rw [advance, ihp]
  | alt p q ihp ihq => rfl
  | capture p ih => rfl
  | lineStart => rfl
  | wordEdge => rfl

lemma advance_seq (p q : Pattern) (cs : List Cursor) :
    (p.seq q).advance cs = q.advance (p.advance cs) := by
  rw [advance]
  cases p.advance cs with
  | nil => exact (advance_nil q).symm
  | cons d ds => rfl

lemma mem_distinct {cs : List Cursor} (h : d ∈ distinct cs) : d ∈ cs := by
  induction cs using distinct_induction with
  | nil => cases h
  | cons c cs ih =>
    rw [distinct_cons] at h
    rcases List.mem_cons.1 h with rfl | h
    · exact List.mem_cons_self
    · exact List.mem_cons_of_mem c (List.mem_filter.1 (ih h)).1

/-- Of each position, one cursor is kept. -/
lemma exists_mem_distinct {cs : List Cursor} (h : d ∈ cs) : ∃ e ∈ distinct cs, e.pos = d.pos := by
  induction cs using distinct_induction with
  | nil => cases h
  | cons c cs ih =>
    rw [distinct_cons]
    by_cases hpos : c.pos = d.pos
    · exact ⟨c, List.mem_cons_self, hpos⟩
    · have hmem : d ∈ cs.filter (·.pos != c.pos) := by
        rcases List.mem_cons.1 h with rfl | h
        · exact absurd rfl hpos
        · exact List.mem_filter.2 ⟨h, by simpa using Ne.symm hpos⟩
      obtain ⟨e, he, heq⟩ := ih hmem
      exact ⟨e, List.mem_cons_of_mem c he, heq⟩

lemma advance_any_nil (c : Cursor) : (any []).advance [c] = [] := by
  show run.go (.oneOf []) c c.rest c.pos 1 (some 1) [] = []
  cases c.rest <;> rfl

lemma advance_literal_singleton (t : Text) (c : Cursor) :
    (literal t).advance [c] = (c.after? t).toList := by
  rw [advance, List.filterMap_cons]
  cases c.after? t <;> rfl

lemma after?_of_mem_any (h : d ∈ (any (ts.map literal)).advance [c]) :
    ∃ t ∈ ts, c.after? t = some d := by
  induction ts with
  | nil =>
    rw [List.map_nil, advance_any_nil] at h
    cases h
  | cons t ts ih =>
    have hcases : d ∈ (literal t).advance [c] ∨ d ∈ (any (ts.map literal)).advance [c] := by
      cases ts with
      | nil => exact .inl h
      | cons u ts => exact List.mem_append.1 (mem_distinct h)
    rcases hcases with h | h
    · rw [advance_literal_singleton, Option.mem_toList] at h
      exact ⟨t, List.mem_cons_self, h⟩
    · obtain ⟨u, hu, h⟩ := ih h
      exact ⟨u, List.mem_cons_of_mem t hu, h⟩

lemma exists_mem_any (ht : t ∈ ts) (h : c.after? t = some d) :
    ∃ e ∈ (any (ts.map literal)).advance [c], e.pos = d.pos := by
  induction ts with
  | nil => cases ht
  | cons u ts ih =>
    have hcases : ∃ e, (e ∈ (literal u).advance [c] ∨ e ∈ (any (ts.map literal)).advance [c]) ∧
        e.pos = d.pos := by
      rcases List.mem_cons.1 ht with rfl | ht
      · refine ⟨d, .inl ?_, rfl⟩
        rw [advance_literal_singleton, h]
        exact List.mem_singleton_self d
      · obtain ⟨e, he, hpos⟩ := ih ht
        exact ⟨e, .inr he, hpos⟩
    cases ts with
    | nil =>
      obtain ⟨e, he | he, hpos⟩ := hcases
      · exact ⟨e, he, hpos⟩
      · rw [List.map_nil, advance_any_nil] at he
        cases he
    | cons v ts =>
      obtain ⟨e, he, hpos⟩ := hcases
      obtain ⟨e', he', hpos'⟩ := exists_mem_distinct (List.mem_append.2 he)
      exact ⟨e', he', hpos'.trans hpos⟩

/-! ## Edges of a word -/

lemma isWordEdge_between {captures : List Span} (hword : ∀ x ∈ front ++ rest, isWord x = true) :
    (between front rest captures).isWordEdge = (front.isEmpty != rest.isEmpty) := by
  have hfront : front.getLast?.any isWord = !front.isEmpty := by
    cases hlast : front.getLast? with
    | none => rw [List.getLast?_eq_none_iff.1 hlast]; rfl
    | some x =>
      have hx := List.mem_of_getLast? hlast
      rw [Option.any_some, hword x (List.mem_append_left rest hx)]
      cases front with
      | nil => cases hx
      | cons y front => rfl
  have hrest : rest.head?.any isWord = !rest.isEmpty := by
    cases rest with
    | nil => rfl
    | cons x rest => exact hword x (by simp)
  rw [isWordEdge, between, hfront, hrest]
  cases front.isEmpty <;> cases rest.isEmpty <;> rfl

end Pattern

end Retouch
