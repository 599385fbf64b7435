import Mathlib.Data.List.SplitBy
import Retouch.Proofs.Literal.Substitution
import Retouch.Proofs.Pattern.Takes

/-! Variables in any expression. A name is found exactly where it is a whole run of word characters: there
are edges on both sides of such a run and none within it. So an expression is rewritten run by run. A run that
is a known name gives way to its identifier, whatever characters that has, and all the rest stays. -/
namespace Retouch

/-- The longest runs of word characters and of other characters, as they follow one another. -/
def Text.wordRuns (t : Text) : List Text := t.splitBy fun a b => isWord a == isWord b

lemma Text.cut?_append_add (a t : Text) (n : Nat) :
    cut? (a ++ t) (a.size + n) = (cut? t n).map fun (before, after) => (a ++ before, after) := by
  cases h : cut? t n with
  | some parts =>
    obtain ⟨before, after⟩ := parts
    obtain ⟨rfl, rfl⟩ := cut?_eq_some.1 h
    exact cut?_eq_some.2 ⟨by simp, size_append a before⟩
  | none =>
    refine Option.eq_none_iff_forall_ne_some.2 fun (before, after) hcut => ?_
    obtain ⟨ht, hsize⟩ := cut?_eq_some.1 hcut
    obtain ⟨m, rfl, rfl⟩ := exists_append_of_size_le ht (by omega)
    rw [size_append, Nat.add_left_cancel_iff] at hsize
    rw [cut?_eq_some.2 ⟨rfl, hsize⟩] at h
    cases h

namespace Pattern

open Cursor

variable {p : Pattern} {front m rest s : Text} {spans : List Span} {last : Option Nat} {M : Match}

lemma takes_any_literal {ts : List Text} :
    (any (ts.map literal)).Takes front m rest spans ↔ m ∈ ts ∧ spans = [] := by
  induction ts with
  | nil =>
    refine iff_of_false ?_ (by simp)
    rintro ⟨hm, hleast, -⟩
    cases m with
    | nil => exact absurd hleast (by simp)
    | cons x m => exact absurd (hm x List.mem_cons_self) (by simp [CharClass.contains])
  | cons t ts ih =>
    cases ts with
    | nil => simp [any, Takes]
    | cons u ts =>
      change m = t ∧ spans = [] ∨ (any ((u :: ts).map literal)).Takes front m rest spans ↔ _
      rw [ih, List.mem_cons (b := t), or_and_right]

/-- Where no match begins, the search goes on. -/
lemma matchesFrom_append (h : ∀ a b, s = a ++ b → b ≠ [] →
      matchesFrom.accepted p last (front ++ a).getLast? (Text.size (front ++ a)) (b ++ rest) = none) :
    p.matchesFrom last front.getLast? front.size (s ++ rest) =
      p.matchesFrom last (front ++ s).getLast? (Text.size (front ++ s)) rest := by
  induction s generalizing front with
  | nil => simp
  | cons x s ih =>
    have hhere := h [] (x :: s) rfl (List.cons_ne_nil x s)
    have hlater := @ih (front ++ [x]) fun a b hs hb => by
      have := h (x :: a) b (by rw [hs]; rfl) hb
      rwa [List.append_assoc, List.singleton_append]
    have hsize : front.size + x.utf8Size = Text.size (front ++ [x]) := by simp
    have hprevious : some x = (front ++ [x]).getLast? := by simp
    rw [List.append_nil, List.cons_append] at hhere
    rw [List.cons_append, matchesFrom, hhere]
    dsimp only
    rw [hsize, hprevious, hlater, List.append_assoc, List.singleton_append]

lemma accepted_eq_none (h : p.matchHere? (between front rest []) = none) :
    matchesFrom.accepted p last front.getLast? front.size rest = none := by
  rw [between] at h
  rw [matchesFrom.accepted, h]
  split <;> rfl

/-- Where a match of some extent begins, the search goes on at its end. -/
lemma matchesFrom_cons {captures : List Span} (hm : m ≠ []) (hlast : ∀ n ∈ last, n ≤ front.size)
    (h : p.matchHere? (between front (m ++ rest) []) =
      some ⟨⟨front.size, Text.size (front ++ m)⟩, captures⟩) :
    p.matchesFrom last front.getLast? front.size (m ++ rest) =
      ⟨⟨front.size, Text.size (front ++ m)⟩, captures⟩ ::
        p.matchesFrom (some (Text.size (front ++ m))) (front ++ m).getLast? (Text.size (front ++ m)) rest := by
  obtain ⟨x, m, rfl⟩ := List.exists_cons_of_ne_nil hm
  have hextent : Text.size (front ++ x :: m) ≠ front.size := by
    have := x.utf8Size_pos
    rw [Text.size_append, Text.size_cons]
    omega
  have hpassed : ¬last.any (front.size < ·) = true := by
    rw [Option.any_eq_true]
    rintro ⟨n, hn, hlt⟩
    exact absurd (hlast n hn) (Nat.not_le_of_lt (of_decide_eq_true hlt))
  have hhere : matchesFrom.accepted p last front.getLast? front.size (x :: m ++ rest) =
      some ⟨⟨front.size, Text.size (front ++ x :: m)⟩, captures⟩ := by
    rw [between] at h
    rw [matchesFrom.accepted, if_neg hpassed, h, Option.filter_some, if_pos]
    rw [beq_false_of_ne hextent]
    rfl
  -- Until the end of the match, no other one begins.
  have hwithin : ∀ a b, m = a ++ b → b ≠ [] → matchesFrom.accepted p (some (Text.size (front ++ x :: m)))
      (front ++ [x] ++ a).getLast? (Text.size (front ++ [x] ++ a)) (b ++ rest) = none := by
    rintro a b rfl hb
    refine if_pos ?_
    have := mt Text.size_eq_zero.1 hb
    simp
    omega
  have hlater := matchesFrom_append hwithin
  simp only [List.append_assoc, List.singleton_append, List.getLast?_concat, Text.size_append,
    Text.size_cons, Text.size_nil, Nat.add_zero] at hlater
  rw [List.cons_append] at hhere ⊢
  rw [matchesFrom, hhere]
  dsimp only
  rw [Text.size_append, Text.size_cons, hlater]

/-- Text before the first span stays. -/
lemma replaceSpans_append {new : Text → Text} {pos : Nat} {spans : List Span}
    (h : ∀ s ∈ spans.head?, pos + front.size ≤ s.start) (rest : Text) :
    replaceSpans new pos spans (front ++ rest) = front ++ replaceSpans new (pos + front.size) spans rest := by
  cases spans with
  | nil => rfl
  | cons s spans =>
    have hoffset : s.start - pos = front.size + (s.start - (pos + front.size)) := by
      have := h s rfl
      omega
    rw [replaceSpans, replaceSpans, hoffset, Text.cut?_append_add]
    cases Text.cut? rest (s.start - (pos + front.size)) with
    | none => rfl
    | some parts =>
      dsimp only [Option.map_some]
      split
      · simp
      · simp

/-- Text that a span covers is replaced. -/
lemma replaceSpans_cons {new : Text → Text} {pos : Nat} {spans : List Span} (m rest : Text) :
    replaceSpans new pos (⟨pos, pos + m.size⟩ :: spans) (m ++ rest) =
      new m ++ replaceSpans new (pos + m.size) spans rest := by
  have hstart : Text.cut? (m ++ rest) 0 = some ([], m ++ rest) := Text.cut?_eq_some.2 ⟨rfl, rfl⟩
  have hstop : Text.cut? (m ++ rest) m.size = some (m, rest) := Text.cut?_eq_some.2 ⟨rfl, rfl⟩
  simp [replaceSpans, hstart, hstop]

end Pattern

namespace Literal

open Pattern Cursor

variable {names : List Text} {front word m rest : Text} {spans : List Span}

/-- A name of a variable: word characters, and at least one. -/
def IsVariable (name : Text) : Prop := name ≠ [] ∧ ∀ c ∈ name, isWord c = true

instance (name : Text) : Decidable (IsVariable name) :=
  have : Decidable (∀ c ∈ name, isWord c = true) := List.decidableBAll _ name
  inferInstanceAs (Decidable (_ ∧ _))

/-- Word characters with none before and none after them. -/
structure IsWhole (front word rest : Text) : Prop where
  isVariable : IsVariable word
  before : front.getLast?.any isWord = false
  after : rest.head?.any isWord = false

lemma takes_variablePattern : (variablePattern names).Takes front m rest spans ↔
    m ∈ names ∧ spans = [] ∧ (between front (m ++ rest) []).isWordEdge = true ∧
      (between (front ++ m) rest []).isWordEdge = true := by
  change (wordEdge.seq ((any ((longestFirst names).map literal)).seq wordEdge)).Takes front m rest spans ↔ _
  constructor
  · rintro ⟨_, _, _, _, ⟨rfl, rfl, hstart⟩, ⟨n, _, _, _, hany, ⟨rfl, rfl, hend⟩, rfl, rfl⟩, rfl, rfl⟩
    obtain ⟨hn, rfl⟩ := takes_any_literal.1 hany
    rw [List.append_nil] at hstart hend ⊢
    exact ⟨mem_longestFirst.1 hn, rfl, hstart, by simpa using hend⟩
  · rintro ⟨hm, rfl, hstart, hend⟩
    refine ⟨[], m, [], [], ⟨rfl, rfl, hstart⟩, ⟨m, [], [], [], ?_, ⟨rfl, rfl, ?_⟩, by simp, rfl⟩, rfl, rfl⟩
    · exact takes_any_literal.2 ⟨mem_longestFirst.2 hm, rfl⟩
    · simpa using hend

lemma head?_any_of_isVariable (h : IsVariable m) (rest : Text) : (m ++ rest).head?.any isWord = true := by
  obtain ⟨hne, hword⟩ := h
  obtain ⟨x, m, rfl⟩ := List.exists_cons_of_ne_nil hne
  exact hword x List.mem_cons_self

lemma getLast?_any_of_isVariable (h : IsVariable m) (front : Text) :
    (front ++ m).getLast?.any isWord = true := by
  obtain ⟨hne, hword⟩ := h
  obtain ⟨m, x, rfl⟩ := (List.eq_nil_or_concat' m).resolve_left hne
  rw [← List.append_assoc, List.getLast?_concat]
  exact hword x (List.mem_append_right m List.mem_cons_self)

/-- Word characters up to the first other one. -/
lemma takeWhile_of_isVariable (h : IsVariable m) (hrest : rest.head?.any isWord = false) :
    (m ++ rest).takeWhile isWord = m := by
  rw [List.takeWhile_append_of_pos h.2]
  cases rest with
  | nil => simp
  | cons x rest =>
    have hx : isWord x = false := hrest
    simp [hx]

/-- Where a run of word characters begins, a name is found exactly if the run is one. -/
lemma matchHere?_whole (hnames : ∀ n ∈ names, IsVariable n) (h : IsWhole front word rest) :
    (variablePattern names).matchHere? (between front (word ++ rest) []) =
      if word ∈ names then some ⟨⟨front.size, front.size + word.size⟩, []⟩ else none := by
  have hend {m rest' : Text} (hm : IsVariable m) :
      (between (front ++ m) rest' []).isWordEdge = !rest'.head?.any isWord := by
    rw [isWordEdge, between, getLast?_any_of_isVariable hm, Bool.true_bne]
  have hwhole {m rest' : Text} {spans : List Span} (heq : word ++ rest = m ++ rest')
      (htakes : (variablePattern names).Takes front m rest' spans) : m ∈ names ∧ spans = [] ∧ m = word := by
    obtain ⟨hm, hspans, -, hedge⟩ := takes_variablePattern.1 htakes
    have hm' := hnames m hm
    rw [hend hm', Bool.not_eq_true'] at hedge
    refine ⟨hm, hspans, ?_⟩
    rw [← takeWhile_of_isVariable hm' hedge, ← heq, takeWhile_of_isVariable h.isVariable h.after]
  split
  · next hword =>
    have htakes : (variablePattern names).Takes front word rest [] := by
      refine takes_variablePattern.2 ⟨hword, rfl, ?_, ?_⟩
      · rw [isWordEdge, between, h.before, head?_any_of_isVariable h.isVariable]
        rfl
      · rw [hend h.isVariable, h.after]
        rfl
    obtain ⟨⟨span, captures⟩, hM⟩ := exists_matchHere? htakes
    obtain ⟨m, rest', heq, htakes', hspan⟩ := takes_of_matchHere? hM
    obtain ⟨-, hcaptures, rfl⟩ := hwhole heq htakes'
    rw [hM]
    obtain rfl := hspan
    obtain rfl := hcaptures
    rfl
  · next hword =>
    refine Option.eq_none_iff_forall_ne_some.2 fun M hM => ?_
    obtain ⟨m, rest', heq, htakes, -⟩ := takes_of_matchHere? hM
    obtain ⟨hm, -, rfl⟩ := hwhole heq htakes
    exact hword hm

/-- Within a run of word characters, and where there is none, no name is found. -/
lemma matchHere?_eq_none (hnames : ∀ n ∈ names, IsVariable n)
    (h : front.getLast?.any isWord = true ∨ rest.head?.any isWord = false) :
    (variablePattern names).matchHere? (between front rest []) = none := by
  refine Option.eq_none_iff_forall_ne_some.2 fun M hM => ?_
  obtain ⟨m, rest', rfl, htakes, -⟩ := takes_of_matchHere? hM
  obtain ⟨hm, -, hedge, -⟩ := takes_variablePattern.1 htakes
  have hhead := head?_any_of_isVariable (hnames m hm) rest'
  rw [isWordEdge, between, hhead] at hedge
  rw [hhead] at h
  simp_all

/-! ## Runs -/

/-- Runs that follow a text: words that stand whole, and runs of other characters. -/
inductive Runs : Text → List Text → Prop
  | nil (front : Text) : Runs front []
  | word {front run : Text} {runs : List Text} : IsVariable run → front.getLast?.any isWord = false →
    Runs (front ++ run) runs → Runs front (run :: runs)
  | other {front run : Text} {runs : List Text} : run ≠ [] → (∀ c ∈ run, isWord c = false) →
    Runs (front ++ run) runs → Runs front (run :: runs)

/-- After a word, no other one begins. -/
lemma Runs.head?_flatten {runs : List Text} (h : Runs (front ++ word) runs) (hword : IsVariable word) :
    runs.flatten.head?.any isWord = false := by
  cases h with
  | nil => rfl
  | word _ hbefore _ =>
    rw [getLast?_any_of_isVariable hword] at hbefore
    cases hbefore
  | @other _ run runs hne hother _ =>
    obtain ⟨x, run, rfl⟩ := List.exists_cons_of_ne_nil hne
    exact hother x List.mem_cons_self

lemma runs_of_isChain {runs : List Text} (hchain : runs.IsChain fun a b =>
      ∃ ha hb, (isWord (a.getLast ha) == isWord (b.head hb)) = false)
    (hruns : ∀ r ∈ runs, r ≠ [] ∧ r.IsChain fun a b => (isWord a == isWord b) = true)
    (hfront : ∀ r ∈ runs.head?, r.head?.any isWord = true → front.getLast?.any isWord = false) :
    Runs front runs := by
  induction runs generalizing front with
  | nil => exact .nil front
  | cons r runs ih =>
    obtain ⟨⟨hne, hsame⟩, hlater⟩ := List.forall_mem_cons.1 hruns
    have : IsTrans Char fun a b => (isWord a == isWord b) = true :=
      ⟨fun a b c hab hbc => by simp_all⟩
    obtain ⟨x, r, rfl⟩ := List.exists_cons_of_ne_nil hne
    have hkind : ∀ c ∈ x :: r, isWord c = isWord x := by
      rw [List.isChain_iff_pairwise, List.pairwise_cons] at hsame
      refine List.forall_mem_cons.2 ⟨rfl, fun c hc => ?_⟩
      exact (beq_iff_eq.1 (hsame.1 c hc)).symm
    have hlast : (front ++ x :: r).getLast?.any isWord = isWord x := by
      obtain ⟨r', y, hr'⟩ := (List.eq_nil_or_concat' (x :: r)).resolve_left hne
      rw [hr', ← List.append_assoc, List.getLast?_concat]
      exact hkind y (by simp [hr'])
    have hlater : Runs (front ++ x :: r) runs := by
      refine ih hchain.tail hlater fun s hs hword => ?_
      obtain ⟨runs, rfl⟩ := List.head?_eq_some_iff.1 hs
      obtain ⟨hr, hs, hdiffer⟩ := (List.isChain_cons_cons.1 hchain).1
      rw [hkind _ (List.getLast_mem hr)] at hdiffer
      rw [List.head?_eq_some_head hs, Option.any_some] at hword
      rw [hlast]
      simpa [hword] using hdiffer
    cases hx : isWord x with
    | true =>
      refine .word ⟨List.cons_ne_nil x r, fun c hc => (hkind c hc).trans hx⟩ ?_ hlater
      exact hfront (x :: r) rfl hx
    | false => exact .other (List.cons_ne_nil x r) (fun c hc => (hkind c hc).trans hx) hlater

lemma runs_wordRuns (t : Text) : Runs [] t.wordRuns := by
  have hchain := List.isChain_getLast_head_splitBy (fun a b => isWord a == isWord b) t
  refine runs_of_isChain hchain (fun r hr => ?_) fun _ _ _ => rfl
  exact ⟨List.ne_nil_of_mem_splitBy hr, List.isChain_of_mem_splitBy hr⟩

/-- A run in which no name begins stays, and the search goes on after it. -/
lemma replaceSpans_run {run : Text} {last : Option Nat} (new : Text → Text)
    (h : ∀ a b, run = a ++ b → b ≠ [] →
      (variablePattern names).matchHere? (between (front ++ a) (b ++ rest) []) = none) :
    replaceSpans new front.size
        (((variablePattern names).matchesFrom last front.getLast? front.size (run ++ rest)).map (·.span))
        (run ++ rest) =
      run ++ replaceSpans new (Text.size (front ++ run))
        (((variablePattern names).matchesFrom last (front ++ run).getLast? (Text.size (front ++ run)) rest).map
          (·.span)) rest := by
  rw [matchesFrom_append fun a b hrun hb => accepted_eq_none (h a b hrun hb), Text.size_append]
  refine replaceSpans_append (fun s hs => ?_) rest
  rw [← Text.size_append] at hs ⊢
  obtain ⟨M, hM, rfl⟩ := List.mem_map.1 (List.mem_of_mem_head? hs)
  exact (takesIn_of_mem_matchesFrom hM).2.1

/-- Each run that is a name is replaced, and nothing else is. -/
theorem replaceSpans_runs (hnames : ∀ n ∈ names, IsVariable n) (new : Text → Text) {runs : List Text}
    (h : Runs front runs) {last : Option Nat} (hlast : ∀ n ∈ last, n ≤ front.size) :
    replaceSpans new front.size
        (((variablePattern names).matchesFrom last front.getLast? front.size runs.flatten).map (·.span))
        runs.flatten =
      runs.flatMap fun run => if run ∈ names then new run else run := by
  have hle {front run : Text} {last : Option Nat} (hlast : ∀ n ∈ last, n ≤ front.size) :
      ∀ n ∈ last, n ≤ Text.size (front ++ run) := fun n hn => by
    rw [Text.size_append]
    exact Nat.le_trans (hlast n hn) (Nat.le_add_right _ _)
  induction h generalizing last with
  | nil front =>
    rw [List.flatten_nil, matchesFrom, accepted_eq_none (matchHere?_eq_none hnames (.inr rfl))]
    rfl
  | @word front run runs hrun hbefore hruns ih =>
    have hhere := matchHere?_whole hnames ⟨hrun, hbefore, hruns.head?_flatten hrun⟩
    rw [← Text.size_append] at hhere
    rw [List.flatten_cons, List.flatMap_cons]
    split at hhere
    · next hmem =>
      have hlater := @ih (some (Text.size (front ++ run))) (by simp)
      rw [matchesFrom_cons hrun.1 hlast hhere, if_pos hmem, List.map_cons, ← hlater, Text.size_append,
        replaceSpans_cons]
    · next hmem =>
      rw [if_neg hmem, ← ih (hle hlast)]
      refine replaceSpans_run new ?_
      rintro a b rfl -
      cases a with
      | nil => simpa using hhere
      | cons x a =>
        have hword : IsVariable (x :: a) :=
          ⟨List.cons_ne_nil x a, fun c hc => hrun.2 c (List.mem_append_left b hc)⟩
        exact matchHere?_eq_none hnames (.inl (getLast?_any_of_isVariable hword front))
  | @other front run runs hne hother hruns ih =>
    have hmem : run ∉ names := fun hmem => by
      have hword := head?_any_of_isVariable (hnames run hmem) []
      obtain ⟨x, run, rfl⟩ := List.exists_cons_of_ne_nil hne
      rw [List.append_nil, List.head?_cons, Option.any_some, hother x List.mem_cons_self] at hword
      cases hword
    rw [List.flatten_cons, List.flatMap_cons, if_neg hmem, ← ih (hle hlast)]
    refine replaceSpans_run new ?_
    rintro a b rfl hb
    obtain ⟨x, b, rfl⟩ := List.exists_cons_of_ne_nil hb
    exact matchHere?_eq_none hnames (.inr (hother x (by simp)))

/-- The expression is rewritten run by run, all at once: a longest run of word characters that is a name gives
way to its identifier as it is, and all other runs stay. -/
theorem substitute_eq_flatMap_wordRuns {identifiers : Identifiers}
    (h : ∀ name ∈ identifiers.keys, IsVariable name) (expr : Text) :
    substitute identifiers expr =
      expr.wordRuns.flatMap fun run => (identifiers.get? run).getD run := by
  have hflatten : expr.wordRuns.flatten = expr := List.flatten_splitBy _ expr
  rw [substitute]
  split
  · next hempty =>
    have hnone (run : Text) : identifiers.get? run = none := by
      rw [SortedMap.get?, List.isEmpty_iff.1 hempty, SortedMap.lookup]
    simp only [hnone, Option.getD_none]
    rw [List.flatMap_id', hflatten]
  · have hkey (run : Text) : (if run ∈ identifiers.keys then (identifiers.get? run).getD run else run) =
        (identifiers.get? run).getD run := by
      refine ite_eq_left_iff.2 fun hmem => ?_
      cases hvalue : identifiers.get? run with
      | none => rfl
      | some value => exact absurd (List.mem_map_of_mem (SortedMap.mem_of_get? hvalue)) hmem
    have hlast : ∀ n ∈ (none : Option Nat), n ≤ Text.size [] := fun n hn => absurd hn (Option.not_mem_none n)
    have hruns := replaceSpans_runs h (fun name => (identifiers.get? name).getD name) (runs_wordRuns expr) hlast
    simp only [hkey, hflatten] at hruns
    exact hruns

/-- A name that begins another one, with an identifier that is a name itself and one with dollar signs. -/
def tools : Identifiers := .ofList [("TOOL".toList, "J$$".toList), ("TOOL_X".toList, "TOOL".toList)]

/-- Longer words stay, and what is put in is not read again. -/
theorem substitute_tools : (∀ name ∈ tools.keys, IsVariable name) ∧
    substitute tools "TOOL.name+TOOLS+TOOL_X(é)".toList = "J$$.name+TOOLS+TOOL(é)".toList := by
  have hkeys : ∀ name ∈ tools.keys, IsVariable name := by decide
  refine ⟨hkeys, ?_⟩
  rw [substitute_eq_flatMap_wordRuns hkeys]
  decide

end Literal
end Retouch
