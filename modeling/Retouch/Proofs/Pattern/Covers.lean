import Retouch.Proofs.Pattern.Choice

/-! What a match covers. A pattern covers texts, each with the spans that are captured in it, apart from
how it is searched for; whatever the search finds is covered. So a match lies within the text, its
captures lie within the match, and the literals of the pattern stand where they have to. -/
namespace Retouch

namespace Pattern

/-- The texts that a pattern covers, with the spans captured in them. The tests that a pattern makes
on what lies around it are left out. -/
def Covers : Pattern → Text → List Span → Prop
  | literal t, m, spans => m = t ∧ spans = []
  | many cls least _, m, spans => (∀ x ∈ m, cls.contains x) ∧ least ≤ m.length ∧ spans = []
  | seq p q, m, spans => ∃ m₁ m₂ spans₁ spans₂, p.Covers m₁ spans₁ ∧ q.Covers m₂ spans₂ ∧
      m = m₁ ++ m₂ ∧ spans = spans₁ ++ spans₂.map (·.shift m₁.size)
  | alt p q, m, spans => p.Covers m spans ∨ q.Covers m spans
  | capture p, m, spans => ∃ spans', p.Covers m spans' ∧ spans = spans' ++ [⟨0, m.size⟩]
  | lineStart, m, spans => m = [] ∧ spans = []
  | wordEdge, m, spans => m = [] ∧ spans = []

/-- How many spans a pattern captures, as long as its alternatives capture as many. -/
def groups : Pattern → Nat
  | literal _ | many .. | lineStart | wordEdge => 0
  | seq p q => p.groups + q.groups
  | alt p _ => p.groups
  | capture p => p.groups + 1

/-- Alternatives capture as many spans as each other. -/
def IsUniform : Pattern → Prop
  | literal _ | many .. | lineStart | wordEdge => True
  | seq p q => p.IsUniform ∧ q.IsUniform
  | alt p q => p.IsUniform ∧ q.IsUniform ∧ p.groups = q.groups
  | capture p => p.IsUniform

lemma Covers.length_eq {p : Pattern} {m : Text} {spans : List Span} (h : p.Covers m spans)
    (hp : p.IsUniform) : spans.length = p.groups := by
  induction p generalizing m spans with
  | literal t => simp [h.2, groups]
  | many cls least most => simp [h.2.2, groups]
  | seq p q ihp ihq =>
    obtain ⟨m₁, m₂, spans₁, spans₂, hp', hq', -, rfl⟩ := h
    rw [List.length_append, List.length_map, ihp hp' hp.1, ihq hq' hp.2, groups]
  | alt p q ihp ihq =>
    rcases h with h | h
    · exact ihp h hp.1
    · rw [ihq h hp.2.1, groups, hp.2.2]
  | capture p ih =>
    obtain ⟨spans', hp', rfl⟩ := h
    rw [List.length_append, ih hp' hp, groups, List.length_singleton]
  | lineStart => simp [h.2, groups]
  | wordEdge => simp [h.2, groups]

end Pattern

namespace Cursor

/-- One cursor is reached from another over some text, with some spans captured in it. -/
structure Over (c d : Cursor) (m : Text) (spans : List Span) : Prop where
  rest : c.rest = m ++ d.rest
  pos : d.pos = c.pos + m.size
  captures : d.captures = c.captures ++ spans.map (·.shift c.pos)

variable {c d e : Cursor} {m m' : Text} {spans spans' : List Span}

lemma Over.refl (c : Cursor) : c.Over c [] [] := ⟨rfl, rfl, by simp⟩

lemma Over.trans (h : c.Over d m spans) (h' : d.Over e m' spans') :
    c.Over e (m ++ m') (spans ++ spans'.map (·.shift m.size)) where
  rest := by rw [h.rest, h'.rest, List.append_assoc]
  pos := by rw [h'.pos, h.pos, Text.size_append, Nat.add_assoc]
  captures := by
    rw [h'.captures, h.captures, List.map_append, List.append_assoc, List.map_map]
    congr 2
    refine List.map_congr_left fun s _ => ?_
    simp [Span.shift, h.pos, Nat.add_assoc]

lemma over_of_after? {t : Text} (h : c.after? t = some d) : c.Over d t [] := by
  induction t generalizing c with
  | nil =>
    cases h
    exact .refl _
  | cons x t ih =>
    rw [after?, next?] at h
    cases hrest : c.rest with
    | nil => simp [hrest] at h
    | cons y rest =>
      simp only [hrest] at h
      split at h
      · next hxy =>
        have hlater := ih h
        have hpos := hlater.pos
        have hcaptures := hlater.captures
        refine ⟨?_, ?_, ?_⟩
        · rw [hrest, hxy, List.cons_append, ← hlater.rest]
        · rw [hpos, Text.size_cons, hxy, Nat.add_assoc]
        · simpa using hcaptures
      · cases h

lemma over_of_mem_run_go {cls : CharClass} {rest : Text} {pos least : Nat} {most : Option Nat}
    {found : List Cursor} (h : d ∈ run.go cls c rest pos least most found) :
    d ∈ found ∨ ∃ m, (∀ x ∈ m, cls.contains x) ∧ least ≤ m.length ∧ rest = m ++ d.rest ∧
      d.pos = pos + m.size ∧ d.captures = c.captures := by
  induction rest generalizing pos least most found with
  | nil => exact .inl h
  | cons x rest ih =>
    rw [run.go] at h
    split at h
    · next hx =>
      have hx : cls.contains x = true := (Bool.and_eq_true _ _ ▸ hx).2
      rcases ih h with hfound | ⟨m, hm, hleast, hrest, hpos, hcaptures⟩
      · split at hfound
        · next hone =>
          rcases List.mem_cons.1 hfound with rfl | hfound
          · exact .inr ⟨[x], by simpa using hx, by simpa using hone, rfl, by simp, rfl⟩
          · exact .inl hfound
        · exact .inl hfound
      · refine .inr ⟨x :: m, ?_, ?_, by rw [hrest]; rfl, ?_, hcaptures⟩
        · rintro y hy
          rcases List.mem_cons.1 hy with rfl | hy
          · exact hx
          · exact hm y hy
        · rw [List.length_cons]
          omega
        · rw [hpos, Text.size_cons, Nat.add_assoc]
    · exact .inl h

lemma over_of_mem_run {cls : CharClass} {least : Nat} {most : Option Nat}
    (h : d ∈ c.run cls least most) : ∃ m, (Pattern.many cls least most).Covers m [] ∧ c.Over d m [] := by
  rcases over_of_mem_run_go h with hfound | ⟨m, hm, hleast, hrest, hpos, hcaptures⟩
  · split at hfound
    · next hzero =>
      obtain rfl : d = c := by simpa using hfound
      exact ⟨[], ⟨by simp, by simp [hzero], rfl⟩, .refl d⟩
    · cases hfound
  · exact ⟨m, ⟨hm, hleast, rfl⟩, hrest, hpos, by simpa using hcaptures⟩

lemma Over.record (h : c.Over d m spans) : c.Over (d.record c.pos) m (spans ++ [⟨0, m.size⟩]) where
  rest := h.rest
  pos := h.pos
  captures := by simp [Cursor.record, h.captures, Span.shift, h.pos]

end Cursor

namespace Pattern

open Cursor

variable {p q : Pattern} {t m : Text} {spans : List Span}

lemma exists_of_mem_spread {step : Cursor → List Cursor} {cs : List Cursor} {d : Cursor}
    (h : d ∈ spread step cs) : ∃ c ∈ cs, d ∈ step c := by
  unfold spread at h
  split at h
  · next c => exact ⟨c, List.mem_cons_self, h⟩
  · exact List.mem_flatMap.1 (mem_distinct h)

/-- What a pattern leads to is reached over a text that it covers. -/
theorem exists_covers_of_mem_advance (p : Pattern) {cs : List Cursor} {d : Cursor}
    (h : d ∈ p.advance cs) : ∃ c ∈ cs, ∃ m spans, p.Covers m spans ∧ c.Over d m spans := by
  induction p generalizing cs d with
  | literal t =>
    obtain ⟨c, hc, hd⟩ := List.mem_filterMap.1 h
    exact ⟨c, hc, t, [], ⟨rfl, rfl⟩, over_of_after? hd⟩
  | many cls least most =>
    obtain ⟨c, hc, hd⟩ := exists_of_mem_spread h
    obtain ⟨m, hm, hover⟩ := over_of_mem_run hd
    exact ⟨c, hc, m, [], hm, hover⟩
  | seq p q ihp ihq =>
    rw [advance_seq] at h
    obtain ⟨e, he, m₂, spans₂, hq, hover₂⟩ := ihq h
    obtain ⟨c, hc, m₁, spans₁, hp, hover₁⟩ := ihp he
    exact ⟨c, hc, _, _, ⟨m₁, m₂, spans₁, spans₂, hp, hq, rfl, rfl⟩, hover₁.trans hover₂⟩
  | alt p q ihp ihq =>
    obtain ⟨c, hc, hd⟩ := exists_of_mem_spread h
    rcases List.mem_append.1 (mem_distinct hd) with hd | hd
    · obtain ⟨c', hc', m, spans, hp, hover⟩ := ihp hd
      obtain rfl := List.mem_singleton.1 hc'
      exact ⟨c', hc, m, spans, .inl hp, hover⟩
    · obtain ⟨c', hc', m, spans, hq, hover⟩ := ihq hd
      obtain rfl := List.mem_singleton.1 hc'
      exact ⟨c', hc, m, spans, .inr hq, hover⟩
  | capture p ih =>
    obtain ⟨c, hc, hd⟩ := exists_of_mem_spread h
    obtain ⟨e, he, rfl⟩ := List.mem_map.1 hd
    obtain ⟨c', hc', m, spans, hp, hover⟩ := ih he
    obtain rfl := List.mem_singleton.1 hc'
    exact ⟨c', hc, m, _, ⟨spans, hp, rfl⟩, hover.record⟩
  | lineStart => exact ⟨d, (List.mem_filter.1 h).1, [], [], ⟨rfl, rfl⟩, .refl d⟩
  | wordEdge => exact ⟨d, (List.mem_filter.1 h).1, [], [], ⟨rfl, rfl⟩, .refl d⟩

/-! ## Matches in a text -/

/-- A match covers the part of a text at its span, and its captures are spans of that part. -/
def StandsIn (p : Pattern) (t : Text) (m : Match) : Prop :=
  ∃ front covered rest spans, t = front ++ covered ++ rest ∧ p.Covers covered spans ∧
    m = ⟨⟨front.size, front.size + covered.size⟩, spans.map (·.shift front.size)⟩

lemma standsIn_of_mem_matchesFrom {last : Option Nat} {previous : Option Char} {front : Text}
    {m : Match} (h : m ∈ p.matchesFrom last previous front.size t) :
    p.StandsIn (front ++ t) m := by
  have hhere {last previous front t} (h : matchesFrom.accepted p last previous (Text.size front) t = some m) :
      p.StandsIn (front ++ t) m := by
    unfold matchesFrom.accepted at h
    split at h
    · cases h
    · obtain ⟨d, hd, rfl⟩ := Option.map_eq_some_iff.1 (Option.filter_eq_some_iff.1 h).1
      obtain ⟨c, hc, covered, spans, hcovers, hover⟩ :=
        p.exists_covers_of_mem_advance (List.mem_of_mem_head? hd)
      obtain rfl := List.mem_singleton.1 hc
      have hrest := hover.rest
      have hpos := hover.pos
      have hcaptures := hover.captures
      dsimp only at hrest hpos hcaptures
      exact ⟨front, covered, d.rest, spans, by rw [hrest, List.append_assoc], hcovers, by
        rw [hpos, hcaptures, List.nil_append]⟩
  induction t generalizing front last previous with
  | nil => exact hhere (Option.mem_toList.1 h)
  | cons c rest ih =>
    have hsize : front.size + c.utf8Size = Text.size (front ++ [c]) := by simp
    rw [matchesFrom, hsize] at h
    have hlater {last previous} (h : m ∈ p.matchesFrom last previous (Text.size (front ++ [c])) rest) :
        p.StandsIn (front ++ c :: rest) m := by
      have := ih h
      rwa [List.append_assoc, List.singleton_append] at this
    split at h
    · next m' hm' =>
      rcases List.mem_cons.1 h with rfl | h
      · exact hhere hm'
      · exact hlater h
    · exact hlater h

theorem standsIn_of_mem_matchesIn {m : Match} (h : m ∈ p.matchesIn t) : p.StandsIn t m := by
  rw [matchesIn, ← Text.size_nil] at h
  exact standsIn_of_mem_matchesFrom h

end Pattern
end Retouch
