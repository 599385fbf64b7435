import Retouch.Literal.Render
import Retouch.Proofs.Pattern.Choice
import Retouch.Proofs.SortedMap

/-! Variables in the expression of a hole. An expression that is one word is a variable as a whole or
not at all, since there are no edges within a word; so one that is known gives way to its identifier. -/
namespace Retouch

namespace Literal

open Pattern Cursor

variable {names : List Text} {name : Text} {d : Cursor}

lemma mem_insertBySize {names : List Text} {n name : Text} :
    n ∈ insertBySize name names ↔ n = name ∨ n ∈ names := by
  induction names with
  | nil => simp [insertBySize]
  | cons m names ih =>
    rw [insertBySize]
    split
    · exact List.mem_cons
    · rw [List.mem_cons, List.mem_cons, ih]
      exact or_left_comm

lemma mem_longestFirst {names : List Text} {n : Text} : n ∈ longestFirst names ↔ n ∈ names := by
  induction names with
  | nil => exact Iff.rfl
  | cons m names ih =>
    rw [longestFirst, List.foldr_cons, mem_insertBySize, List.mem_cons]
    exact or_congr_right ih

/-- A name is found between two edges. -/
lemma mem_advance_variablePattern {c : Cursor} :
    d ∈ (variablePattern names).advance [c] ↔
      c.isWordEdge = true ∧ d ∈ (any ((longestFirst names).map literal)).advance [c] ∧
        d.isWordEdge = true := by
  show d ∈ (wordEdge.seq ((any ((longestFirst names).map literal)).seq wordEdge)).advance [c] ↔ _
  rw [advance_seq, advance_seq]
  by_cases hedge : c.isWordEdge = true
  · have hstart : wordEdge.advance [c] = [c] := by simp [advance, hedge]
    rw [hstart, advance, List.mem_filter]
    simp [hedge]
  · have hstart : wordEdge.advance [c] = [] := by simp [advance, hedge]
    rw [hstart, advance_nil, advance_nil]
    simp [hedge]

/-- In a word, what starts at its beginning and ends at an edge is the word. -/
lemma eq_of_mem_variablePattern (hnames : [] ∉ names) (hname : ∀ x ∈ name, isWord x = true)
    (h : d ∈ (variablePattern names).advance [between [] name []]) :
    d = between name [] [] := by
  obtain ⟨-, hany, hend⟩ := mem_advance_variablePattern.1 h
  obtain ⟨n, hn, hafter⟩ := after?_of_mem_any hany
  obtain ⟨rest, rfl, rfl⟩ := after?_between.1 hafter
  rw [List.nil_append, isWordEdge_between hname] at hend
  cases n with
  | nil => exact absurd (mem_longestFirst.1 hn) hnames
  | cons x n =>
    have hrest : rest = [] := by simpa using hend
    simp [hrest]

/-- A known word leads from its beginning to its end. -/
lemma mem_variablePattern (hname : ∀ x ∈ name, isWord x = true) (hne : name ≠ [])
    (hmem : name ∈ names) :
    between name [] [] ∈ (variablePattern names).advance [between [] name []] := by
  have hafter : (between [] name []).after? name = some (between name [] []) :=
    after?_between.2 ⟨[], (List.append_nil name).symm, rfl⟩
  obtain ⟨e, he, hpos⟩ := exists_mem_any (mem_longestFirst.2 hmem) hafter
  obtain ⟨n, -, hn⟩ := after?_of_mem_any he
  obtain ⟨rest, hsplit, rfl⟩ := after?_between.1 hn
  have hsize : n.size = name.size := hpos
  obtain rfl : rest = [] := by
    rw [hsplit, Text.size_append] at hsize
    exact Text.size_eq_zero.1 (by omega)
  obtain rfl : name = n := by rw [hsplit, List.append_nil]
  refine mem_advance_variablePattern.2 ⟨?_, he, ?_⟩
  · rw [isWordEdge_between hname]
    simpa using hne
  · rw [isWordEdge_between (by simpa using hname)]
    simpa using hne

/-- A known word is found as a whole. -/
lemma matchHere?_word (hnames : [] ∉ names) (hname : ∀ x ∈ name, isWord x = true)
    (hmem : name ∈ names) :
    (variablePattern names).matchHere? (between [] name []) = some ⟨⟨0, name.size⟩, []⟩ := by
  have hlast := mem_variablePattern hname (fun h => hnames (h ▸ hmem)) hmem
  have hhead : ((variablePattern names).advance [between [] name []]).head? =
      some (between name [] []) := by
    cases hds : (variablePattern names).advance [between [] name []] with
    | nil =>
      rw [hds] at hlast
      cases hlast
    | cons d ds =>
      have hd : d ∈ (variablePattern names).advance [between [] name []] := by simp [hds]
      rw [eq_of_mem_variablePattern hnames hname hd, List.head?_cons]
  rw [matchHere?, hhead]
  rfl

/-- At the end of a text, no name starts. -/
lemma matchHere?_end (hnames : [] ∉ names) (front : Text) :
    (variablePattern names).matchHere? (between front [] []) = none := by
  have hnone : (variablePattern names).advance [between front [] []] = [] := by
    refine List.eq_nil_iff_forall_not_mem.2 fun d hd => ?_
    obtain ⟨-, hany, -⟩ := mem_advance_variablePattern.1 hd
    obtain ⟨n, hn, hafter⟩ := after?_of_mem_any hany
    obtain ⟨rest, hrest, -⟩ := after?_between.1 hafter
    obtain ⟨rfl, -⟩ := List.append_eq_nil_iff.1 hrest.symm
    exact hnames (mem_longestFirst.1 hn)
  rw [matchHere?, hnone]
  rfl

/-- Until the end of a match, no other one is found. -/
lemma matchesFrom_passed {p : Pattern} {front rest : Text}
    (hend : p.matchHere? (between (front ++ rest) [] []) = none) :
    p.matchesFrom (some (Text.size (front ++ rest))) front.getLast? front.size rest = [] := by
  induction rest generalizing front with
  | nil =>
    rw [List.append_nil] at hend
    rw [matchesFrom, matchesFrom.accepted, ← between, hend]
    simp
  | cons x rest ih =>
    have hpassed : (some (Text.size (front ++ x :: rest))).any (front.size < ·) = true := by
      have := x.utf8Size_pos
      simp
      omega
    have hrest := @ih (front ++ [x]) (by simpa using hend)
    rw [matchesFrom, matchesFrom.accepted, if_pos hpassed]
    simpa using hrest

lemma matchesIn_word (hnames : [] ∉ names) (hname : ∀ x ∈ name, isWord x = true)
    (hmem : name ∈ names) :
    (variablePattern names).matchesIn name = [⟨⟨0, name.size⟩, []⟩] := by
  cases name with
  | nil => exact absurd hmem hnames
  | cons x name =>
    have hhere := matchHere?_word hnames hname hmem
    have hrest := @matchesFrom_passed (variablePattern names) [x] name
      (matchHere?_end hnames _)
    have hfirst : (variablePattern names).matchHere? ⟨none, 0, x :: name, []⟩ =
        some ⟨⟨0, Text.size (x :: name)⟩, []⟩ := hhere
    rw [matchesIn, matchesFrom, accepted_none, hfirst]
    simpa using hrest

/-- A known word gives way to its identifier. -/
theorem substitute_of_get? {identifiers : Identifiers} {value : Text}
    (hkeys : [] ∉ identifiers.keys) (hname : ∀ x ∈ name, isWord x = true)
    (h : identifiers.get? name = some value) : substitute identifiers name = value := by
  have hentry := SortedMap.mem_of_get? h
  have hmem : name ∈ identifiers.keys := List.mem_map_of_mem hentry
  have hsome : identifiers.isEmpty = false := by
    rw [SortedMap.isEmpty, List.isEmpty_eq_false_iff]
    exact List.ne_nil_of_mem hentry
  have hstart : Text.cut? name 0 = some ([], name) := Text.cut?_eq_some.2 ⟨rfl, rfl⟩
  have hend : Text.cut? name name.size = some (name, []) :=
    Text.cut?_eq_some.2 ⟨(List.append_nil name).symm, rfl⟩
  rw [substitute, hsome, if_neg Bool.false_ne_true, replaceAll, matchesIn_word hkeys hname hmem]
  simp [replaceSpans, hstart, hend, h]

end Literal
end Retouch
