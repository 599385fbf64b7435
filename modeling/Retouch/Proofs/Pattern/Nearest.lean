import Retouch.Proofs.Pattern.Takes
import Retouch.Proofs.Pattern.Window

/-! Which match an anchored search finds. The first occurrence of the anchor with a match in reach decides,
and of its matches in reach the nearest is found, the first of several. Where nothing after the anchor is in
reach, and no match can end in the anchor, that is the last match before it. -/
namespace Retouch.Anchored

open Attempt

variable {p : Pattern} {t needle : Text} {name : String} {reach : Reach} {anchor : Span} {a : Anchored}
  {m : Match}

/-! ## Matches in reach -/

/-- The matches in reach of an anchor, from left to right. -/
def inReach (t : Text) (p : Pattern) (reach : Reach) (anchor : Span) : List Match :=
  let low := t.boundaryBefore (anchor.start - reach.before)
  let slice := t.slice? low (t.boundaryAfter (anchor.stop + reach.after))
  ((slice.map p.matchesIn).getD []).map (·.shift low)

lemma exists_of_mem_inReach (h : m ∈ inReach t p reach anchor) : ∃ slice, ∃ n ∈ p.matchesIn slice,
    t.slice? (t.boundaryBefore (anchor.start - reach.before)) (t.boundaryAfter (anchor.stop + reach.after)) =
      some slice ∧ m = n.shift (t.boundaryBefore (anchor.start - reach.before)) := by
  obtain ⟨n, hn, rfl⟩ := List.mem_map.1 h
  cases hslice : t.slice? (t.boundaryBefore (anchor.start - reach.before))
      (t.boundaryAfter (anchor.stop + reach.after)) with
  | none =>
    rw [hslice] at hn
    cases hn
  | some slice =>
    rw [hslice] at hn
    exact ⟨slice, n, hn, rfl, rfl⟩

lemma standsIn_of_mem_inReach (h : m ∈ inReach t p reach anchor) : p.StandsIn t m := by
  obtain ⟨slice, n, hn, hslice, rfl⟩ := exists_of_mem_inReach h
  exact (Pattern.standsIn_of_mem_matchesIn hn).shift hslice

lemma pairwise_inReach (t : Text) (p : Pattern) (reach : Reach) (anchor : Span) :
    (inReach t p reach anchor).Pairwise Match.Before := by
  have hshift (low : Nat) (ms : List Match) (h : ms.Pairwise Match.Before) :
      (ms.map (·.shift low)).Pairwise Match.Before :=
    List.pairwise_map.2 (h.imp fun ⟨hstart, hstop⟩ =>
      ⟨Nat.add_lt_add_left hstart low, Nat.add_le_add_left hstop low⟩)
  refine hshift _ _ ?_
  cases t.slice? (t.boundaryBefore (anchor.start - reach.before))
      (t.boundaryAfter (anchor.stop + reach.after)) with
  | none => exact .nil
  | some slice => exact Pattern.pairwise_matchesIn p slice

/-! ## What is found -/

/-- The anchor is the first one with a match in reach, and the match is the first of the nearest ones. -/
structure Finds (t needle : Text) (reach : Reach) (p : Pattern) (a : Anchored) : Prop where
  first : ∃ before later, t.occurrences needle = before ++ a.anchor.start :: later ∧
    ∀ n ∈ before, inReach t p reach ⟨n, n + needle.size⟩ = []
  anchor_stop : a.anchor.stop = a.anchor.start + needle.size
  nearest : ∃ front back, inReach t p reach a.anchor = front ++ a.found :: back ∧
    (∀ m ∈ front, distance a.anchor a.found.span < distance a.anchor m.span) ∧
    ∀ m ∈ back, distance a.anchor a.found.span ≤ distance a.anchor m.span

theorem find_eq_ok_iff : find t name needle reach p = .ok a ↔ Finds t needle reach p a := by
  rw [find, findBy_eq_ok_iff]
  simp only [nearestAt_eq_none_iff, nearestAt_eq_some_iff]
  constructor
  · rintro ⟨before, later, hocc, hbefore, hanchor, hnearest⟩
    exact ⟨⟨before, later, hocc, hbefore⟩, by rw [hanchor], hnearest⟩
  · rintro ⟨⟨before, later, hocc, hbefore⟩, hstop, hnearest⟩
    exact ⟨before, later, hocc, hbefore, by rw [← hstop], hnearest⟩

lemma capture_eq_ok {index : Nat} {found : Text} (h : a.capture t name index = .ok found) :
    ∃ s, a.found.captures[index]? = some s ∧ t.slice? s.start s.stop = some found := by
  obtain ⟨o, ho, h⟩ := bind_eq_ok.1 h
  obtain rfl := orSkip_eq_ok.1 h
  unfold capture? at ho
  split at ho
  · next s hs =>
    obtain ⟨text, htext, h⟩ := bind_eq_ok.1 ho
    cases h
    exact ⟨s, hs, demand_eq_ok.1 htext⟩
  · cases ho

namespace Finds

lemma standsAt (h : Finds t needle reach p a) : needle.StandsAt t a.anchor.start := by
  obtain ⟨before, later, hocc, -⟩ := h.first
  exact Text.standsAt_of_mem_occurrences (hocc ▸ List.mem_append_right before List.mem_cons_self)

lemma mem (h : Finds t needle reach p a) : a.found ∈ inReach t p reach a.anchor := by
  obtain ⟨front, back, hreach, -⟩ := h.nearest
  exact hreach ▸ List.mem_append_right front List.mem_cons_self

lemma standsIn (h : Finds t needle reach p a) : p.StandsIn t a.found := standsIn_of_mem_inReach h.mem

end Finds

/-- A match is preferred to another: it is nearer to the anchor, or as near and before the other. -/
def Nearer (anchor : Span) (m m' : Match) : Prop :=
  distance anchor m.span < distance anchor m'.span ∨
    distance anchor m.span = distance anchor m'.span ∧ m.span.start < m'.span.start

/-- No match in reach is preferred to the one that is found. -/
lemma Finds.nearer (h : Finds t needle reach p a) (hm : m ∈ inReach t p reach a.anchor) (hne : m ≠ a.found) :
    Nearer a.anchor a.found m := by
  have hpairs := pairwise_inReach t p reach a.anchor
  obtain ⟨front, back, hreach, hfront, hback⟩ := h.nearest
  rw [hreach] at hm hpairs
  rcases List.mem_append.1 hm with hm | hm
  · exact .inl (hfront m hm)
  · rcases List.mem_cons.1 hm with rfl | hm
    · exact absurd rfl hne
    · have hbefore := List.rel_of_pairwise_cons (List.pairwise_append.1 hpairs).2.1 hm
      rcases Nat.lt_or_eq_of_le (hback m hm) with hlt | heq
      · exact .inl hlt
      · exact .inr ⟨heq, hbefore.1⟩

lemma Nearer.asymm {m' : Match} (h : Nearer anchor m m') : ¬Nearer anchor m' m := by
  unfold Nearer at h ⊢
  omega

/-- What is found is of some kind exactly if a match of that kind is preferred to every one that is not. -/
lemma Finds.iff_exists {P : Match → Prop} (h : Finds t needle reach p a) : P a.found ↔
    ∃ m ∈ inReach t p reach a.anchor, P m ∧
      ∀ m' ∈ inReach t p reach a.anchor, ¬P m' → Nearer a.anchor m m' := by
  constructor
  · intro hfound
    refine ⟨a.found, h.mem, hfound, fun m' hm' hkind => h.nearer hm' ?_⟩
    rintro rfl
    exact hkind hfound
  · rintro ⟨m, hm, hkind, hnearer⟩
    by_contra hfound
    have hne : m ≠ a.found := by
      rintro rfl
      exact hfound hkind
    exact (h.nearer hm hne).asymm (hnearer a.found h.mem hfound)

/-! ## Matches before the anchor -/

/-- Every text that a pattern covers ends with a character. -/
def EndsWith (p : Pattern) (x : Char) : Prop :=
  ∀ covered spans, p.Covers covered spans → ∃ front, covered = front ++ [x]

variable {x : Char} {n : Nat}

/-- Where nothing after the anchor is in reach, what is searched ends with the anchor. -/
lemma exists_slice_eq {low : Nat} {slice : Text} (h : needle.StandsAt t anchor.start)
    (hstop : anchor.stop = anchor.start + needle.size) (hlow : low ≤ anchor.start)
    (hslice : t.slice? low (t.boundaryAfter anchor.stop) = some slice) :
    ∃ front, slice = front ++ needle ∧ low + front.size = anchor.start := by
  have hhigh : t.boundaryAfter anchor.stop = anchor.stop := by
    have hboundary : t.isBoundary anchor.stop := hstop ▸ h.isBoundary_stop
    exact Nat.le_antisymm (Text.boundaryAfter_le hboundary (Nat.le_refl _))
      (Text.le_boundaryAfter (Nat.le_refl _) (Text.le_size_of_isBoundary hboundary))
  rw [hhigh] at hslice
  obtain ⟨before, after, ht, hbefore⟩ := h
  obtain ⟨a, b, heq, rfl, hsize⟩ := Text.slice?_eq_some.1 hslice
  rw [ht, List.append_assoc, List.append_assoc] at heq
  obtain ⟨front, rfl, hrest⟩ := Text.exists_append_of_size_le heq.symm (by omega)
  rw [← List.append_assoc] at hrest
  rw [Text.size_append] at hbefore
  obtain ⟨rfl, -⟩ := Text.append_inj_of_size hrest (by rw [Text.size_append]; omega)
  exact ⟨front, rfl, hbefore⟩

lemma stop_le_of_mem_inReach (hends : EndsWith p x) (hx : x ∉ needle) (h : needle.StandsAt t anchor.start)
    (hstop : anchor.stop = anchor.start + needle.size) (hm : m ∈ inReach t p ⟨n, 0⟩ anchor) :
    m.span.stop ≤ anchor.start := by
  obtain ⟨slice, m', hm', hslice, rfl⟩ := exists_of_mem_inReach hm
  have hlow : t.boundaryBefore (anchor.start - n) ≤ anchor.start :=
    Nat.le_trans (t.boundaryBefore_le _) (Nat.sub_le _ _)
  obtain ⟨front, hfront, hsize⟩ := exists_slice_eq h hstop hlow hslice
  obtain ⟨before, covered, rest, spans, heq, hcovers, rfl⟩ := Pattern.standsIn_of_mem_matchesIn hm'
  obtain ⟨covered, rfl⟩ := hends covered spans hcovers
  -- The part of the anchor that the match would cover has the last character of the match.
  have hbefore : Text.size (before ++ (covered ++ [x])) ≤ front.size := by
    rcases List.append_eq_append_iff.1 (heq.symm.trans hfront) with ⟨k, hk, -⟩ | ⟨k, hk, hneedle⟩
    · rw [hk]
      simp
    · rcases List.eq_nil_or_concat k with rfl | ⟨k, y, rfl⟩
      · exact Nat.le_of_eq (by rw [hk, List.append_nil])
      · rw [List.concat_eq_append] at hk hneedle
        rw [← List.append_assoc, ← List.append_assoc] at hk
        obtain rfl : x = y := List.singleton_inj.1 (List.append_inj_right' hk rfl)
        rw [hneedle] at hx
        simp at hx
  rw [Text.size_append] at hbefore
  simp only [Match.shift, Span.shift]
  omega

/-- The last match before the anchor is found. -/
lemma Finds.last (h : Finds t needle ⟨n, 0⟩ p a) (hends : EndsWith p x) (hx : x ∉ needle) :
    a.found.span.stop ≤ a.anchor.start ∧
      ∀ m ∈ inReach t p ⟨n, 0⟩ a.anchor, m ≠ a.found → m.Before a.found := by
  have hstop {m : Match} (hm : m ∈ inReach t p ⟨n, 0⟩ a.anchor) : m.span.stop ≤ a.anchor.start :=
    stop_le_of_mem_inReach hends hx h.standsAt h.anchor_stop hm
  have hlt {m : Match} (hm : m ∈ inReach t p ⟨n, 0⟩ a.anchor) : m.span.start < m.span.stop := by
    obtain ⟨before, covered, rest, spans, -, hcovers, rfl⟩ := standsIn_of_mem_inReach hm
    obtain ⟨front, rfl⟩ := hends covered spans hcovers
    have := x.utf8Size_pos
    simp only [Text.size_append, Text.size_cons, Text.size_nil]
    omega
  refine ⟨hstop h.mem, fun m hm hne => ?_⟩
  have hnearer := h.nearer hm hne
  rcases Pattern.before_or_before_of_pairwise (pairwise_inReach t p _ _) hm h.mem hne with hbefore | hbefore
  · exact hbefore
  · have hm' := hstop hm
    have hfound := hstop h.mem
    have := hlt hm
    have := hbefore.2
    simp only [Nearer, distance, if_pos hm', if_pos hfound] at hnearer
    omega

/-- The match stands before the anchor, with some text between them. -/
lemma Finds.exists_append (h : Finds t needle ⟨n, 0⟩ p a) (hends : EndsWith p x) (hx : x ∉ needle) :
    ∃ front covered between rest spans, t = front ++ covered ++ between ++ needle ++ rest ∧
      p.Covers covered spans ∧ a.anchor.start = Text.size (front ++ covered ++ between) ∧
      a.found = ⟨⟨front.size, front.size + covered.size⟩, spans.map (·.shift front.size)⟩ := by
  have hbefore := (h.last hends hx).1
  obtain ⟨front, covered, after, spans, ht, hcovers, hfound⟩ := h.standsIn
  obtain ⟨before, rest, ht', hstart⟩ := h.standsAt
  rw [hfound, ← hstart, ← Text.size_append] at hbefore
  rw [ht', List.append_assoc] at ht
  obtain ⟨between, rfl, -⟩ := Text.exists_append_of_size_le ht.symm hbefore
  exact ⟨front, covered, between, rest, spans, ht', hcovers, hstart.symm, hfound⟩

end Retouch.Anchored
