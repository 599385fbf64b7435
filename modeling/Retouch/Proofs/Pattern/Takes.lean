import Mathlib.Data.List.Pairwise
import Retouch.Proofs.Pattern.Covers

/-! What a pattern takes. Between two parts of a text, a pattern takes some texts, whichever way through it
is preferred. The search keeps one way to each end, so it leads to an end exactly if the pattern takes the
text up to there, and it passes over a text that the pattern takes only for a match that reaches it. -/
namespace Retouch

/-- The cursor stands somewhere in a text. -/
def Cursor.IsIn (c : Cursor) (t : Text) : Prop :=
  ∃ front rest captures, t = front ++ rest ∧ c = between front rest captures

/-- A match begins after another one, and not before its end. -/
def Match.Before (M N : Match) : Prop := M.span.start < N.span.start ∧ M.span.stop ≤ N.span.start

/-- A position lies in a match, and not at its end. -/
def Match.Holds (M : Match) (n : Nat) : Prop := M.span.start ≤ n ∧ n < M.span.stop

lemma Cursor.IsIn.single {c : Cursor} {t : Text} (h : c.IsIn t) : ∀ c' ∈ [c], c'.IsIn t :=
  List.forall_mem_singleton.2 h

namespace Pattern

open Cursor

/-- The texts that a pattern takes between two parts of a text, with the spans captured on the way. -/
def Takes : Pattern → (front m rest : Text) → List Span → Prop
  | literal t, _, m, _, spans => m = t ∧ spans = []
  | many cls least most, _, m, _, spans =>
    (∀ x ∈ m, cls.contains x = true) ∧ least ≤ m.length ∧ (∀ n ∈ most, m.length ≤ n) ∧ spans = []
  | seq p q, front, m, rest, spans => ∃ m₁ m₂ spans₁ spans₂, p.Takes front m₁ (m₂ ++ rest) spans₁ ∧
      q.Takes (front ++ m₁) m₂ rest spans₂ ∧ m = m₁ ++ m₂ ∧ spans = spans₁ ++ spans₂
  | alt p q, front, m, rest, spans => p.Takes front m rest spans ∨ q.Takes front m rest spans
  | capture p, front, m, rest, spans => ∃ spans', p.Takes front m rest spans' ∧
      spans = spans' ++ [⟨front.size, front.size + m.size⟩]
  | lineStart, front, m, rest, spans => m = [] ∧ spans = [] ∧ (between front rest []).isLineStart = true
  | wordEdge, front, m, rest, spans => m = [] ∧ spans = [] ∧ (between front rest []).isWordEdge = true

/-- In a text, the pattern takes what lies between two cursors. -/
def Leads (p : Pattern) (t : Text) (c d : Cursor) : Prop :=
  ∃ front m rest captures spans, t = front ++ m ++ rest ∧ p.Takes front m rest spans ∧
    c = between front (m ++ rest) captures ∧ d = between (front ++ m) rest (captures ++ spans)

variable {p q : Pattern} {t front m rest : Text} {spans captures : List Span} {c d e : Cursor}
  {cs : List Cursor}

lemma Leads.isIn (h : p.Leads t c d) : d.IsIn t := by
  obtain ⟨front, m, rest, captures, spans, rfl, -, -, rfl⟩ := h
  exact ⟨front ++ m, rest, _, rfl, rfl⟩

lemma Leads.seq (hp : p.Leads t c d) (hq : q.Leads t d e) : (p.seq q).Leads t c e := by
  obtain ⟨front, m₁, rest₁, captures, spans₁, rfl, hp, rfl, rfl⟩ := hp
  obtain ⟨front₂, m₂, rest, captures₂, spans₂, ht, hq, hd, rfl⟩ := hq
  simp only [between, Cursor.mk.injEq] at hd
  obtain ⟨-, -, rfl, rfl⟩ := hd
  rw [List.append_assoc front₂] at ht
  obtain rfl : front ++ m₁ = front₂ := List.append_cancel_right ht
  refine ⟨front, m₁ ++ m₂, rest, captures, spans₁ ++ spans₂, by simp, ?_, by simp, by simp⟩
  exact ⟨m₁, m₂, spans₁, spans₂, hp, hq, rfl, rfl⟩

lemma leads_literal {u : Text} (hc : c.IsIn t) (h : c.after? u = some d) : (literal u).Leads t c d := by
  obtain ⟨front, rest, captures, rfl, rfl⟩ := hc
  obtain ⟨rest', rfl, rfl⟩ := after?_between.1 h
  exact ⟨front, u, rest', captures, [], by simp, ⟨rfl, rfl⟩, rfl, by simp⟩

/-! ## Patterns that begin with a text or a run -/

lemma takes_literal_seq {u : Text} : ((literal u).seq q).Takes front m rest spans ↔
    ∃ m', m = u ++ m' ∧ q.Takes (front ++ u) m' rest spans := by
  constructor
  · rintro ⟨_, m', _, spans', ⟨rfl, rfl⟩, hq, rfl, rfl⟩
    exact ⟨m', rfl, hq⟩
  · rintro ⟨m', rfl, hq⟩
    exact ⟨u, m', [], spans, ⟨rfl, rfl⟩, hq, rfl, rfl⟩

lemma takes_many_seq {cls : CharClass} {least : Nat} {most : Option Nat} :
    ((many cls least most).seq q).Takes front m rest spans ↔ ∃ run m',
      (many cls least most).Takes front run (m' ++ rest) [] ∧ m = run ++ m' ∧ q.Takes (front ++ run) m' rest spans := by
  constructor
  · rintro ⟨run, m', _, spans', ⟨hrun, hleast, hmost, rfl⟩, hq, rfl, rfl⟩
    exact ⟨run, m', ⟨hrun, hleast, hmost, rfl⟩, rfl, hq⟩
  · rintro ⟨run, m', hrun, rfl, hq⟩
    exact ⟨run, m', [], spans, hrun, hq, rfl, rfl⟩

lemma takes_capture_many_seq {cls : CharClass} {least : Nat} {most : Option Nat} :
    ((capture (many cls least most)).seq q).Takes front m rest spans ↔ ∃ run m' spans',
      (many cls least most).Takes front run (m' ++ rest) [] ∧ m = run ++ m' ∧ q.Takes (front ++ run) m' rest spans' ∧
        spans = ⟨front.size, front.size + run.size⟩ :: spans' := by
  constructor
  · rintro ⟨run, m', _, spans', ⟨_, ⟨hrun, hleast, hmost, rfl⟩, rfl⟩, hq, rfl, rfl⟩
    exact ⟨run, m', spans', ⟨hrun, hleast, hmost, rfl⟩, rfl, hq, rfl⟩
  · rintro ⟨run, m', spans', hrun, rfl, hq, rfl⟩
    exact ⟨run, m', _, spans', ⟨[], hrun, rfl⟩, hq, rfl, rfl⟩

/-! ## Runs -/

/-- One more character within the bounds. -/
lemma takes_many_cons {cls : CharClass} {least : Nat} {most : Option Nat} {x : Char} {rest' : Text}
    (hmost : most ≠ some 0) (hx : cls.contains x = true) :
    (many cls least most).Takes front (x :: m) rest' [] ↔
      (many cls (least - 1) (most.map (· - 1))).Takes (front ++ [x]) m rest' [] := by
  rw [Takes, Takes, List.forall_mem_cons, and_iff_right hx]
  refine and_congr_right fun _ => ?_
  cases most with
  | none => simp
  | some n =>
    have hn : n ≠ 0 := fun h => hmost (by rw [h])
    simp only [List.length_cons, Option.map_some, Option.mem_some_iff, forall_eq', and_true]
    omega

/-- A run leads on over each text that may be taken. -/
lemma mem_run_go_iff {cls : CharClass} {least : Nat} {most : Option Nat} {found : List Cursor} :
    d ∈ run.go cls c rest front.size least most found ↔ d ∈ found ∨
      ∃ m rest', m ≠ [] ∧ rest = m ++ rest' ∧ (many cls least most).Takes front m rest' [] ∧
        d = between (front ++ m) rest' c.captures := by
  induction rest generalizing front least most found with
  | nil =>
    refine ⟨.inl, ?_⟩
    rintro (hfound | ⟨m, rest', hne, hrest, -⟩)
    · exact hfound
    · exact absurd (List.append_eq_nil_iff.1 hrest.symm).1 hne
  | cons x rest ih =>
    rw [run.go]
    split
    · next hx =>
      obtain ⟨hmost, hx⟩ : most ≠ some 0 ∧ cls.contains x = true := by simpa using hx
      have hcursor : (⟨some x, front.size + x.utf8Size, rest, c.captures⟩ : Cursor) =
          between (front ++ [x]) rest c.captures := by simp [between]
      have hsize : front.size + x.utf8Size = Text.size (front ++ [x]) := by simp
      dsimp only
      rw [hcursor, hsize, ih]
      constructor
      · rintro (hfound | ⟨m, rest', -, rfl, hm, rfl⟩)
        · split at hfound
          · next hleast =>
            rcases List.mem_cons.1 hfound with rfl | hfound
            · refine .inr ⟨[x], rest, List.cons_ne_nil _ _, rfl, (takes_many_cons hmost hx).2 ?_, rfl⟩
              simp [Takes, hleast]
            · exact .inl hfound
          · exact .inl hfound
        · have hlonger := (takes_many_cons hmost hx).2 hm
          exact .inr ⟨x :: m, rest', List.cons_ne_nil _ _, rfl, hlonger, by simp⟩
      · rintro (hfound | ⟨m, rest', hne, hrest, hm, rfl⟩)
        · left
          split
          · exact List.mem_cons_of_mem _ hfound
          · exact hfound
        · cases m with
          | nil => exact absurd rfl hne
          | cons y m =>
            obtain ⟨rfl, rfl⟩ := List.cons.inj hrest
            cases m with
            | nil =>
              left
              rw [if_pos (by simpa using hm.2.1)]
              exact List.mem_cons_self
            | cons y m =>
              have hshorter := (takes_many_cons hmost hx).1 hm
              exact .inr ⟨y :: m, rest', List.cons_ne_nil _ _, rfl, hshorter, by simp⟩
    · next hx =>
      refine ⟨.inl, ?_⟩
      rintro (hfound | ⟨m, rest', hne, hrest, ⟨hm, -, hmost, -⟩, -⟩)
      · exact hfound
      · cases m with
        | nil => exact absurd rfl hne
        | cons y m =>
          obtain ⟨rfl, -⟩ := List.cons.inj hrest
          refine absurd ?_ hx
          rw [hm x List.mem_cons_self, Bool.and_true, decide_eq_true_eq]
          rintro rfl
          exact Nat.not_succ_le_zero _ (hmost 0 rfl)

lemma mem_run_iff {cls : CharClass} {least : Nat} {most : Option Nat} :
    d ∈ (between front rest captures).run cls least most ↔
      ∃ m rest', rest = m ++ rest' ∧ (many cls least most).Takes front m rest' [] ∧
        d = between (front ++ m) rest' captures := by
  rw [run, show (between front rest captures).pos = front.size from rfl, mem_run_go_iff]
  constructor
  · rintro (hfound | ⟨m, rest', -, hm⟩)
    · split at hfound
      · next hzero =>
        obtain rfl := List.mem_singleton.1 hfound
        exact ⟨[], rest, rfl, by simp [Takes, hzero], by simp⟩
      · cases hfound
    · exact ⟨m, rest', hm⟩
  · rintro ⟨m, rest', rfl, hm, rfl⟩
    cases m with
    | nil =>
      left
      rw [if_pos (by simpa using hm.2.1)]
      simp
    | cons x m => exact .inr ⟨x :: m, rest', List.cons_ne_nil _ _, rfl, hm, rfl⟩

lemma leads_many {cls : CharClass} {least : Nat} {most : Option Nat} (hc : c.IsIn t)
    (h : d ∈ c.run cls least most) : (many cls least most).Leads t c d := by
  obtain ⟨front, rest, captures, rfl, rfl⟩ := hc
  obtain ⟨m, rest', rfl, hm, rfl⟩ := mem_run_iff.1 h
  exact ⟨front, m, rest', captures, [], by simp, hm, rfl, by simp⟩

/-! ## The cursors that a pattern leads to -/

/-- A pattern leads over texts that it takes. -/
theorem leads_of_mem_advance (p : Pattern) (hcs : ∀ c ∈ cs, c.IsIn t) (h : d ∈ p.advance cs) :
    ∃ c ∈ cs, p.Leads t c d := by
  induction p generalizing cs d with
  | literal u =>
    obtain ⟨c, hc, hd⟩ := List.mem_filterMap.1 h
    exact ⟨c, hc, leads_literal (hcs c hc) hd⟩
  | many cls least most =>
    obtain ⟨c, hc, hd⟩ := exists_of_mem_spread h
    exact ⟨c, hc, leads_many (hcs c hc) hd⟩
  | seq p q ihp ihq =>
    rw [advance_seq] at h
    have hmiddle : ∀ e ∈ p.advance cs, e.IsIn t := fun e he =>
      have ⟨_, _, hp⟩ := ihp hcs he
      hp.isIn
    obtain ⟨e, he, hq⟩ := ihq hmiddle h
    obtain ⟨c, hc, hp⟩ := ihp hcs he
    exact ⟨c, hc, hp.seq hq⟩
  | alt p q ihp ihq =>
    obtain ⟨c, hc, hd⟩ := exists_of_mem_spread h
    have hsingle := (hcs c hc).single
    rcases List.mem_append.1 (mem_distinct hd) with hd | hd
    · obtain ⟨c', hc', front, m, rest, captures, spans, ht, hp, hleads⟩ := ihp hsingle hd
      obtain rfl := List.mem_singleton.1 hc'
      exact ⟨c', hc, front, m, rest, captures, spans, ht, .inl hp, hleads⟩
    · obtain ⟨c', hc', front, m, rest, captures, spans, ht, hq, hleads⟩ := ihq hsingle hd
      obtain rfl := List.mem_singleton.1 hc'
      exact ⟨c', hc, front, m, rest, captures, spans, ht, .inr hq, hleads⟩
  | capture p ih =>
    obtain ⟨c, hc, hd⟩ := exists_of_mem_spread h
    obtain ⟨e, he, rfl⟩ := List.mem_map.1 hd
    obtain ⟨c', hc', front, m, rest, captures, spans, ht, hp, hfrom, rfl⟩ :=
      ih (hcs c hc).single he
    obtain rfl := List.mem_singleton.1 hc'
    refine ⟨c', hc, front, m, rest, captures, _, ht, ⟨spans, hp, rfl⟩, hfrom, ?_⟩
    simp [hfrom, record, between]
  | lineStart =>
    obtain ⟨hd, htest⟩ := List.mem_filter.1 h
    obtain ⟨front, rest, captures, rfl, rfl⟩ := hcs d hd
    exact ⟨_, hd, front, [], rest, captures, [], by simp, ⟨rfl, rfl, htest⟩, rfl, by simp⟩
  | wordEdge =>
    obtain ⟨hd, htest⟩ := List.mem_filter.1 h
    obtain ⟨front, rest, captures, rfl, rfl⟩ := hcs d hd
    exact ⟨_, hd, front, [], rest, captures, [], by simp, ⟨rfl, rfl, htest⟩, rfl, by simp⟩

/-- Cursors at one position of a text differ in their captures only. -/
lemma eq_between (he : e.IsIn (front ++ rest)) (hpos : e.pos = front.size) :
    ∃ captures, e = between front rest captures := by
  obtain ⟨front', rest', captures, ht, rfl⟩ := he
  obtain ⟨rfl, rfl⟩ := Text.append_inj_of_size ht hpos.symm
  exact ⟨captures, rfl⟩

lemma exists_between_mem_distinct (hcs : ∀ c ∈ cs, c.IsIn (front ++ rest))
    (h : between front rest captures ∈ cs) : ∃ captures, between front rest captures ∈ distinct cs := by
  obtain ⟨e, he, hpos⟩ := exists_mem_distinct h
  obtain ⟨captures', rfl⟩ := eq_between (hcs e (mem_distinct he)) hpos
  exact ⟨captures', he⟩

lemma exists_between_mem_spread {step : Cursor → List Cursor}
    (hstep : ∀ c ∈ cs, ∀ d ∈ step c, d.IsIn (front ++ rest)) (hc : c ∈ cs)
    (h : between front rest captures ∈ step c) :
    ∃ captures, between front rest captures ∈ spread step cs := by
  unfold spread
  split
  · obtain rfl := List.mem_singleton.1 hc
    exact ⟨captures, h⟩
  · refine exists_between_mem_distinct (fun d hd => ?_) (List.mem_flatMap.2 ⟨c, hc, h⟩)
    obtain ⟨c', hc', hd⟩ := List.mem_flatMap.1 hd
    exact hstep c' hc' d hd

lemma isIn_of_mem_advance (hcs : ∀ c ∈ cs, c.IsIn t) (h : d ∈ p.advance cs) : d.IsIn t := by
  obtain ⟨c, -, hleads⟩ := leads_of_mem_advance p hcs h
  exact hleads.isIn

/-- A pattern leads over each text that it takes. -/
theorem exists_mem_advance (h : p.Takes front m rest spans) (hcs : ∀ c ∈ cs, c.IsIn (front ++ m ++ rest))
    (hc : between front (m ++ rest) captures ∈ cs) :
    ∃ captures, between (front ++ m) rest captures ∈ p.advance cs := by
  induction p generalizing front m rest spans captures cs with
  | literal u =>
    obtain ⟨rfl, rfl⟩ := h
    exact ⟨captures, List.mem_filterMap.2 ⟨_, hc, after?_between_append m⟩⟩
  | many cls least most =>
    obtain rfl := h.2.2.2
    have hstep : ∀ c ∈ cs, ∀ d ∈ c.run cls least most, d.IsIn (front ++ m ++ rest) :=
      fun c hc d hd => (leads_many (hcs c hc) hd).isIn
    exact exists_between_mem_spread hstep hc
      (mem_run_iff.2 ⟨m, rest, rfl, h, rfl⟩ : between (front ++ m) rest captures ∈ _)
  | seq p q ihp ihq =>
    obtain ⟨m₁, m₂, spans₁, spans₂, hp, hq, rfl, rfl⟩ := h
    have htext : front ++ (m₁ ++ m₂) ++ rest = front ++ m₁ ++ (m₂ ++ rest) := by simp
    have htext' : front ++ (m₁ ++ m₂) ++ rest = front ++ m₁ ++ m₂ ++ rest := by simp
    rw [List.append_assoc] at hc
    obtain ⟨captures₁, hmiddle⟩ := ihp hp (htext ▸ hcs) hc
    rw [advance_seq, ← List.append_assoc]
    exact ihq hq (fun e he => htext' ▸ isIn_of_mem_advance hcs he) hmiddle
  | alt p q ihp ihq =>
    have hboth : ∀ c ∈ cs, ∀ d ∈ p.advance [c] ++ q.advance [c], d.IsIn (front ++ m ++ rest) := by
      intro c hc d hd
      have hsingle := (hcs c hc).single
      exact (List.mem_append.1 hd).elim (isIn_of_mem_advance hsingle) (isIn_of_mem_advance hsingle)
    have hsingle := (hcs _ hc).single
    have hend : ∃ captures', between (front ++ m) rest captures' ∈
        p.advance [between front (m ++ rest) captures] ++
          q.advance [between front (m ++ rest) captures] := by
      rcases h with h | h
      · obtain ⟨captures', hend⟩ := ihp h hsingle List.mem_cons_self
        exact ⟨captures', List.mem_append_left _ hend⟩
      · obtain ⟨captures', hend⟩ := ihq h hsingle List.mem_cons_self
        exact ⟨captures', List.mem_append_right _ hend⟩
    obtain ⟨captures', hend⟩ := hend
    obtain ⟨captures'', hend⟩ := exists_between_mem_distinct (hboth _ hc) hend
    exact exists_between_mem_spread (fun c hc d hd => hboth c hc d (mem_distinct hd)) hc hend
  | capture p ih =>
    obtain ⟨spans', hp, rfl⟩ := h
    have hrecord : ∀ c ∈ cs, ∀ d ∈ (p.advance [c]).map (·.record c.pos),
        d.IsIn (front ++ m ++ rest) := by
      intro c hc d hd
      obtain ⟨e, he, rfl⟩ := List.mem_map.1 hd
      obtain ⟨front', rest', captures', ht, rfl⟩ :=
        isIn_of_mem_advance (hcs c hc).single he
      exact ⟨front', rest', _, ht, rfl⟩
    obtain ⟨captures', hend⟩ := ih hp (hcs _ hc).single List.mem_cons_self
    have hmem : between (front ++ m) rest (captures' ++ [⟨front.size, Text.size (front ++ m)⟩]) ∈
        (p.advance [between front (m ++ rest) captures]).map (·.record front.size) :=
      List.mem_map.2 ⟨_, hend, rfl⟩
    exact exists_between_mem_spread hrecord hc hmem
  | lineStart =>
    obtain ⟨rfl, rfl, htest⟩ := h
    rw [List.append_nil]
    exact ⟨captures, List.mem_filter.2 ⟨hc, htest⟩⟩
  | wordEdge =>
    obtain ⟨rfl, rfl, htest⟩ := h
    rw [List.append_nil]
    exact ⟨captures, List.mem_filter.2 ⟨hc, htest⟩⟩

/-! ## Matches in a text -/

lemma isIn_between (front rest : Text) (captures : List Span) :
    (between front rest captures).IsIn (front ++ rest) := ⟨front, rest, captures, rfl, rfl⟩

/-- A match takes the part of a text at its span. -/
def TakesIn (p : Pattern) (t : Text) (M : Match) : Prop :=
  ∃ front m rest, t = front ++ m ++ rest ∧ p.Takes front m rest M.captures ∧
    M.span = ⟨front.size, front.size + m.size⟩

variable {M : Match} {last : Option Nat}

lemma takes_of_matchHere? (h : p.matchHere? (between front rest []) = some M) :
    ∃ m rest', rest = m ++ rest' ∧ p.Takes front m rest' M.captures ∧
      M.span = ⟨front.size, front.size + m.size⟩ := by
  obtain ⟨d, hd, rfl⟩ := Option.map_eq_some_iff.1 h
  obtain ⟨c, hc, front', m, rest', captures, spans, ht, hp, hfrom, rfl⟩ :=
    leads_of_mem_advance p (isIn_between front rest []).single (List.mem_of_mem_head? hd)
  rw [List.mem_singleton.1 hc] at hfrom
  simp only [between, Cursor.mk.injEq] at hfrom
  obtain ⟨-, -, rfl, rfl⟩ := hfrom
  rw [List.append_assoc] at ht
  obtain rfl := List.append_cancel_right ht
  exact ⟨m, rest', rfl, hp, by simp [between]⟩

lemma takesIn_of_matchHere? (h : p.matchHere? (between front rest []) = some M) :
    p.TakesIn (front ++ rest) M := by
  obtain ⟨m, rest', rfl, hp, hspan⟩ := takes_of_matchHere? h
  exact ⟨front, m, rest', by simp, hp, hspan⟩

/-- Where the pattern takes a text, it has a match. -/
lemma exists_matchHere? (h : p.Takes front m rest spans) :
    ∃ M, p.matchHere? (between front (m ++ rest) []) = some M := by
  have hin := isIn_between front (m ++ rest) []
  rw [← List.append_assoc] at hin
  obtain ⟨captures, hend⟩ := exists_mem_advance h hin.single List.mem_cons_self
  cases hhead : (p.advance [between front (m ++ rest) []]).head? with
  | none =>
    rw [List.head?_eq_none_iff.1 hhead] at hend
    cases hend
  | some d => exact ⟨_, by rw [matchHere?, hhead, Option.map_some]⟩

lemma accepted_eq_some (h : matchesFrom.accepted p last front.getLast? front.size rest = some M) :
    p.matchHere? (between front rest []) = some M ∧ ∀ n ∈ last, n ≤ front.size := by
  unfold matchesFrom.accepted at h
  split at h
  · cases h
  · next hlast =>
    refine ⟨(Option.filter_eq_some_iff.1 h).1, ?_⟩
    rintro n rfl
    simpa using hlast

/-- Matches are those of the pattern, and none starts before the last one ended. -/
lemma takesIn_of_mem_matchesFrom (h : M ∈ p.matchesFrom last front.getLast? front.size rest) :
    p.TakesIn (front ++ rest) M ∧ front.size ≤ M.span.start ∧ ∀ n ∈ last, n ≤ M.span.start := by
  induction rest generalizing front last with
  | nil =>
    obtain ⟨hhere, hlast⟩ := accepted_eq_some (Option.mem_toList.1 h)
    have hstart : M.span.start = front.size := start_of_matchHere? hhere
    exact ⟨takesIn_of_matchHere? hhere, hstart ▸ Nat.le_refl _, hstart ▸ hlast⟩
  | cons c rest ih =>
    have hsize : front.size + c.utf8Size = Text.size (front ++ [c]) := by simp
    have hprevious : some c = (front ++ [c]).getLast? := by simp
    rw [matchesFrom, hsize, hprevious] at h
    have hlater {last} (h : M ∈ p.matchesFrom last (front ++ [c]).getLast? (Text.size (front ++ [c])) rest) :
        p.TakesIn (front ++ c :: rest) M ∧ front.size ≤ M.span.start ∧ ∀ n ∈ last, n ≤ M.span.start := by
      obtain ⟨htakes, hpos, hlast⟩ := ih h
      rw [List.append_assoc, List.singleton_append] at htakes
      exact ⟨htakes, by omega, hlast⟩
    split at h
    · next N hN =>
      obtain ⟨hhere, hlast⟩ := accepted_eq_some hN
      have hstart : N.span.start = front.size := start_of_matchHere? hhere
      rcases List.mem_cons.1 h with rfl | h
      · exact ⟨takesIn_of_matchHere? hhere, hstart ▸ Nat.le_refl _, hstart ▸ hlast⟩
      · obtain ⟨htakes, hpos, -⟩ := hlater h
        exact ⟨htakes, hpos, fun n hn => Nat.le_trans (hlast n hn) hpos⟩
    · exact hlater h

theorem takesIn_of_mem_matchesIn (h : M ∈ p.matchesIn t) : p.TakesIn t M := by
  have hfrom : M ∈ p.matchesFrom none (List.getLast? []) (Text.size []) t := h
  exact (takesIn_of_mem_matchesFrom hfrom).1

lemma pairwise_matchesFrom (p : Pattern) (last : Option Nat) (front rest : Text) :
    (p.matchesFrom last front.getLast? front.size rest).Pairwise Match.Before := by
  induction rest generalizing front last with
  | nil =>
    rw [matchesFrom]
    cases matchesFrom.accepted p last front.getLast? front.size [] with
    | none => exact .nil
    | some M => exact List.pairwise_singleton _ M
  | cons c rest ih =>
    have hsize : front.size + c.utf8Size = Text.size (front ++ [c]) := by simp
    have hprevious : some c = (front ++ [c]).getLast? := by simp
    rw [matchesFrom, hsize, hprevious]
    split
    · next M hM =>
      refine List.pairwise_cons.2 ⟨fun N hN => ?_, ih _ _⟩
      obtain ⟨-, hpos, hlast⟩ := takesIn_of_mem_matchesFrom hN
      have hstart : M.span.start = front.size := start_of_matchHere? (accepted_eq_some hM).1
      have := c.utf8Size_pos
      exact ⟨by omega, hlast _ rfl⟩
    · exact ih _ _

/-- Matches follow one another without overlap. -/
theorem pairwise_matchesIn (p : Pattern) (t : Text) : (p.matchesIn t).Pairwise Match.Before :=
  pairwise_matchesFrom p none [] t

lemma before_or_before_of_pairwise {ms : List Match} {N : Match} (h : ms.Pairwise Match.Before) (hM : M ∈ ms)
    (hN : N ∈ ms) (hne : M ≠ N) : M.Before N ∨ N.Before M := by
  have hpairs : ms.Pairwise fun M N => M.Before N ∨ N.Before M := h.imp .inl
  have : Std.Symm fun M N : Match => M.Before N ∨ N.Before M := ⟨fun _ _ => Or.symm⟩
  exact hpairs.forall hM hN hne

lemma before_or_before {N : Match} (hM : M ∈ p.matchesIn t) (hN : N ∈ p.matchesIn t) (hne : M ≠ N) :
    M.Before N ∨ N.Before M := before_or_before_of_pairwise (pairwise_matchesIn p t) hM hN hne

/-- No match ends after the last one. -/
lemma stop_le_of_getLast? {last : Match} (hlast : (p.matchesIn t).getLast? = some last) (hM : M ∈ p.matchesIn t) :
    M.span.stop ≤ last.span.stop := by
  obtain ⟨ms, hms⟩ := List.getLast?_eq_some_iff.1 hlast
  obtain ⟨front, m, rest, -, -, hspan⟩ := takesIn_of_mem_matchesIn (List.mem_of_getLast? hlast)
  have hpairs := List.pairwise_append.1 (hms ▸ pairwise_matchesIn p t)
  rw [hms] at hM
  rcases List.mem_append.1 hM with hM | hM
  · have hbefore := (hpairs.2.2 M hM last List.mem_cons_self).2
    rw [hspan] at hbefore ⊢
    exact Nat.le_trans hbefore (Nat.le_add_right _ _)
  · exact Nat.le_of_eq (by rw [List.mem_singleton.1 hM])

/-- A position where a match of some extent begins is held by a match, unless it is passed over. -/
lemma exists_holds_matchesFrom {N : Match} {skipped : Text}
    (hN : p.matchHere? (between (front ++ skipped) rest []) = some N)
    (hextent : Text.size (front ++ skipped) < N.span.stop) :
    (∃ M ∈ p.matchesFrom last front.getLast? front.size (skipped ++ rest),
        M.Holds (Text.size (front ++ skipped))) ∨
      ∃ n ∈ last, Text.size (front ++ skipped) < n := by
  induction skipped generalizing front last with
  | nil =>
    rw [List.append_nil] at hN hextent ⊢
    by_cases hlast : last.any (front.size < ·) = true
    · right
      simpa [Option.any_eq_true] using hlast
    · left
      have hstart : N.span.start = front.size := start_of_matchHere? hN
      have hhere : matchesFrom.accepted p last front.getLast? front.size rest = some N := by
        rw [between] at hN
        rw [matchesFrom.accepted, if_neg hlast, hN, Option.filter_some, if_pos]
        simp [Nat.ne_of_gt hextent]
      refine ⟨N, ?_, Nat.le_of_eq hstart, hextent⟩
      cases rest with
      | nil => rw [List.nil_append, matchesFrom, hhere]; exact List.mem_singleton_self N
      | cons c rest => rw [List.nil_append, matchesFrom, hhere]; exact List.mem_cons_self
  | cons c skipped ih =>
    have hsize : front.size + c.utf8Size = Text.size (front ++ [c]) := by simp
    have hprevious : some c = (front ++ [c]).getLast? := by simp
    have hfront : front ++ c :: skipped = front ++ [c] ++ skipped := by simp
    have hle : front.size ≤ Text.size (front ++ c :: skipped) := by simp
    rw [List.cons_append, matchesFrom, hsize, hprevious]
    rw [hfront] at hN hextent
    split
    · next M hM =>
      have hstart : M.span.start = front.size := start_of_matchHere? (accepted_eq_some hM).1
      left
      rcases @ih (front ++ [c]) (some M.span.stop) hN hextent with ⟨N', hN', hholds⟩ | ⟨n, hn, hlt⟩
      · exact ⟨N', List.mem_cons_of_mem M hN', hfront ▸ hholds⟩
      · cases hn
        exact ⟨M, List.mem_cons_self, by omega, hfront ▸ hlt⟩
    · rw [hfront]
      exact ih hN hextent

/-- A text that the pattern takes begins in a match, unless an empty one would begin there. -/
theorem exists_holds_matchesIn (h : p.Takes front m rest spans)
    (hempty : ∀ rest' spans', ¬p.Takes front [] rest' spans') :
    ∃ M ∈ p.matchesIn (front ++ m ++ rest), M.Holds front.size := by
  obtain ⟨N, hN⟩ := exists_matchHere? h
  obtain ⟨m', rest', -, hp, hspan⟩ := takes_of_matchHere? hN
  have hextent : front.size < N.span.stop := by
    rw [hspan]
    refine Nat.lt_add_of_pos_right (Nat.pos_of_ne_zero fun hzero => ?_)
    rw [Text.size_eq_zero.1 hzero] at hp
    exact hempty _ _ hp
  have hfrom : (∃ M ∈ p.matchesFrom none (List.getLast? []) (Text.size []) (front ++ (m ++ rest)),
      M.Holds (Text.size ([] ++ front))) ∨ ∃ n ∈ (none : Option Nat), Text.size ([] ++ front) < n :=
    exists_holds_matchesFrom hN hextent
  rcases hfrom with hfound | ⟨n, hn, -⟩
  · simpa [matchesIn] using hfound
  · cases hn

/-- Nothing that the pattern takes begins before the first match. -/
theorem exists_first_of_find? (h : p.find? t = some M) : ∃ front m rest, t = front ++ m ++ rest ∧
    p.Takes front m rest M.captures ∧ M.span = ⟨front.size, front.size + m.size⟩ ∧
    ∀ front' m' rest' spans, t = front' ++ m' ++ rest' → p.Takes front' m' rest' spans →
      front.size ≤ front'.size := by
  rw [find?_eq] at h
  obtain ⟨front, s, rfl, hmatch, hfirst⟩ := (@head?_everywhere_eq_some_iff p [] M t).1 h
  obtain ⟨m, rest, rfl, htakes, hspan⟩ := takes_of_matchHere? hmatch
  refine ⟨front, m, rest, by rw [List.append_assoc], htakes, hspan, fun front' m' rest' spans ht htakes' => ?_⟩
  by_contra hlt
  rw [List.append_assoc front'] at ht
  obtain ⟨k, rfl, -⟩ := Text.exists_append_of_size_le ht.symm (Nat.le_of_not_le hlt)
  have hk : k ≠ [] := by
    rintro rfl
    exact hlt (Nat.le_of_eq (by rw [List.append_nil]))
  obtain ⟨N, hN⟩ := exists_matchHere? htakes'
  have hnone := hfirst front' (m' ++ rest') ht (by simpa using List.length_pos_iff.2 hk)
  cases hN.symm.trans hnone

/-- Where the pattern takes a text, there is a match in the whole. -/
theorem matchesIn_ne_nil (h : p.Takes front m rest spans) : p.matchesIn (front ++ m ++ rest) ≠ [] := by
  obtain ⟨N, hN⟩ := exists_matchHere? h
  obtain ⟨ms, hms, -⟩ := exists_everywhere_append p [] front (m ++ rest)
  have hhere : N ∈ p.everywhere front.getLast? front.size (m ++ rest) := by
    rw [between] at hN
    generalize m ++ rest = t at hN
    cases t with
    | nil => rw [everywhere, hN]; exact List.mem_singleton_self N
    | cons x t => rw [everywhere, hN]; exact List.mem_cons_self
  intro hnil
  have hhead := head?_matchesFrom p none 0 (front ++ m ++ rest)
  rw [← matchesIn, hnil, List.append_assoc] at hhead
  rw [List.nil_append] at hms
  have heverywhere : p.everywhere none 0 (front ++ (m ++ rest)) = [] := List.head?_eq_none_iff.1 hhead.symm
  have hmem : N ∈ p.everywhere none 0 (front ++ (m ++ rest)) := by
    rw [show (none : Option Char) = List.getLast? [] from rfl, ← Text.size_nil, hms]
    exact List.mem_append_right ms hhere
  rw [heverywhere] at hmem
  cases hmem

end Pattern
end Retouch
