import Retouch.Pattern.Site
import Retouch.Proofs.Attempt.Yields
import Retouch.Proofs.Pattern.Covers
import Retouch.Proofs.Text.Found

/-! What a search for a site gives. Matches and their captures lie in the text, also where the search
looked at a part of the text only, and an anchor stands where its match was looked for. So a search
that finds nothing is skipped, and no search asks for text that is not there. -/
namespace Retouch

/-- The ends of a span are boundaries of the text, in order. -/
def Span.LiesIn (s : Span) (t : Text) : Prop := (t.slice? s.start s.stop).isSome

lemma Span.liesIn_iff {s : Span} {t : Text} :
    s.LiesIn t ↔ s.start ≤ s.stop ∧ t.isBoundary s.start ∧ t.isBoundary s.stop :=
  Text.isSome_slice?_iff

lemma Span.stop_eq_of_last? {s : Span} {n : Nat} (h : s.last? = some n) : s.stop = n + 1 := by
  unfold last? at h
  split at h
  · have := Option.some.inj h
    omega
  · cases h

lemma Text.StandsAt.liesIn {needle t : Text} {n : Nat} (h : needle.StandsAt t n) :
    Span.LiesIn ⟨n, n + needle.size⟩ t :=
  Span.liesIn_iff.2 ⟨Nat.le_add_right _ _, h.isBoundary, h.isBoundary_stop⟩

lemma Span.LiesIn.shift {s : Span} {t slice : Text} {low high : Nat} (h : s.LiesIn slice)
    (hslice : t.slice? low high = some slice) : (s.shift low).LiesIn t := by
  obtain ⟨hle, hstart, hstop⟩ := liesIn_iff.1 h
  refine liesIn_iff.2 ⟨Nat.add_le_add_left hle low, ?_, ?_⟩
  · exact Text.isBoundary_of_slice? hslice hstart
  · exact Text.isBoundary_of_slice? hslice hstop

namespace Pattern

variable {p : Pattern} {t covered slice : Text} {spans : List Span} {m : Match} {low high : Nat}

/-- What is captured lies within what is covered. -/
theorem Covers.liesIn (h : p.Covers covered spans) : ∀ s ∈ spans, s.LiesIn covered := by
  induction p generalizing covered spans with
  | literal t => simp [h.2]
  | many cls least most => simp [h.2.2]
  | seq p q ihp ihq =>
    obtain ⟨m₁, m₂, spans₁, spans₂, hp, hq, rfl, rfl⟩ := h
    have hleft : (m₁ ++ m₂).slice? 0 m₁.size = some m₁ := by simpa using Text.slice?_append [] m₁ m₂
    have hright : (m₁ ++ m₂).slice? m₁.size (m₁.size + m₂.size) = some m₂ := by
      simpa using Text.slice?_append m₁ m₂ []
    intro s hs
    rcases List.mem_append.1 hs with hs | hs
    · have := (ihp hp s hs).shift hleft
      simpa [Span.shift] using this
    · obtain ⟨s', hs', rfl⟩ := List.mem_map.1 hs
      exact (ihq hq s' hs').shift hright
  | alt p q ihp ihq =>
    rcases h with h | h
    · exact ihp h
    · exact ihq h
  | capture p ih =>
    obtain ⟨spans', hp, rfl⟩ := h
    intro s hs
    rcases List.mem_append.1 hs with hs | hs
    · exact ih hp s hs
    · obtain rfl := List.mem_singleton.1 hs
      exact Span.liesIn_iff.2 ⟨Nat.zero_le _, Text.isBoundary_zero _, Text.isBoundary_size _⟩
  | lineStart => simp [h.2]
  | wordEdge => simp [h.2]

lemma StandsIn.span_liesIn (h : p.StandsIn t m) : m.span.LiesIn t := by
  obtain ⟨front, covered, rest, spans, rfl, -, rfl⟩ := h
  exact Option.isSome_iff_exists.2 ⟨covered, Text.slice?_append front covered rest⟩

lemma StandsIn.capture_liesIn (h : p.StandsIn t m) {s : Span} (hs : s ∈ m.captures) : s.LiesIn t := by
  obtain ⟨front, covered, rest, spans, rfl, hcovers, rfl⟩ := h
  obtain ⟨s', hs', rfl⟩ := List.mem_map.1 hs
  exact (hcovers.liesIn s' hs').shift (Text.slice?_append front covered rest)

lemma StandsIn.length_captures (h : p.StandsIn t m) (hp : p.IsUniform) :
    m.captures.length = p.groups := by
  obtain ⟨front, covered, rest, spans, -, hcovers, rfl⟩ := h
  rw [List.length_map, hcovers.length_eq hp]

/-- A match in a part of a text is a match in the text. -/
lemma StandsIn.shift (h : p.StandsIn slice m) (hslice : t.slice? low high = some slice) :
    p.StandsIn t (m.shift low) := by
  obtain ⟨a, b, rfl, rfl, -⟩ := Text.slice?_eq_some.1 hslice
  obtain ⟨front, covered, rest, spans, rfl, hcovers, rfl⟩ := h
  refine ⟨a ++ front, covered, rest ++ b, spans, by simp, hcovers, ?_⟩
  simp [Match.shift, Span.shift, Nat.add_assoc]

lemma standsIn_of_find? (h : p.find? t = some m) : p.StandsIn t m :=
  standsIn_of_mem_matchesIn (List.mem_of_mem_head? h)

end Pattern

namespace Site

open Attempt

variable {p : Pattern} {t : Text} {name : String} {m : Match} {site : Site}

lemma of?_eq_some {start stop : Nat} {names : List Text} (h : of? t start stop names = some site) :
    site = ⟨⟨start, stop⟩, names⟩ ∧ site.span.LiesIn t := by
  rw [of?] at h
  split at h
  · next hslice =>
    cases h
    exact ⟨rfl, hslice⟩
  · cases h

lemma yields_text (h : site.span.LiesIn t) : (site.text t).Yields fun _ => True :=
  (yields_demand_of_isSome h).mono fun _ _ => trivial

lemma yields_name (site : Site) (pattern : String) (index : Nat) :
    (site.name pattern index).Yields fun _ => True :=
  yields_orSkip (fun _ _ => trivial) nofun

lemma yields_captured {group : Nat} {spans : List Span} (h : ∀ s ∈ spans, s.LiesIn t) :
    (captured t name group spans).Yields fun _ => True := by
  induction spans generalizing group with
  | nil => trivial
  | cons s spans ih =>
    rw [captured]
    refine (yields_demand_of_isSome (h s List.mem_cons_self)).bind fun found _ => ?_
    refine yields_unless nofun fun _ => ?_
    exact (ih fun s' hs' => h s' (List.mem_cons_of_mem s hs')).bind fun _ _ => trivial

lemma yields_ofMatch (h : p.StandsIn t m) :
    (ofMatch t name m).Yields fun site => site.span = m.span ∧ site.span.LiesIn t := by
  refine (yields_captured fun s hs => h.capture_liesIn hs).bind fun names _ => ?_
  refine yields_orSkip (fun site hsite => ?_) nofun
  obtain ⟨rfl, hliesIn⟩ := of?_eq_some hsite
  exact ⟨rfl, hliesIn⟩

/-- What a search for a site yields: a site at a match of the pattern, which lies in the text. -/
def IsFound (p : Pattern) (t : Text) (site : Site) : Prop :=
  (∃ m, p.StandsIn t m ∧ site.span = m.span) ∧ site.span.LiesIn t

theorem yields_find (t : Text) (name : String) (p : Pattern) :
    (find t name p).Yields (IsFound p t) := by
  refine Yields.bind (yields_orSkip (fun m => Pattern.standsIn_of_find?) nofun) fun m hm => ?_
  exact (yields_ofMatch hm).mono fun site hsite => ⟨⟨m, hm, hsite.1⟩, hsite.2⟩

lemma captured_cons_eq_ok {group : Nat} {s : Span} {spans : List Span} {names : List Text}
    (h : captured t name group (s :: spans) = .ok names) :
    ∃ found names', names = found :: names' ∧ t.slice? s.start s.stop = some found := by
  obtain ⟨found, hfound, h⟩ := bind_eq_ok.1 h
  dsimp only at h
  split at h
  · cases h
  · obtain ⟨names', -, h⟩ := bind_eq_ok.1 h
    cases h
    exact ⟨found, names', rfl, demand_eq_ok.1 hfound⟩

/-- A site that is found is the first match, with the texts of its captures. -/
lemma find_eq_ok (h : find t name p = .ok site) : ∃ m, p.find? t = some m ∧ site.span = m.span ∧
    captured t name 1 m.captures = .ok site.names := by
  obtain ⟨m, hm, h⟩ := bind_eq_ok.1 h
  obtain ⟨names, hnames, h⟩ := bind_eq_ok.1 h
  obtain ⟨rfl, -⟩ := of?_eq_some (orSkip_eq_ok.1 h)
  exact ⟨m, orSkip_eq_ok.1 hm, rfl, hnames⟩

lemma yields_isTwin (h : p.StandsIn t m) (hcaptures : 2 ≤ m.captures.length) :
    (isTwin t m).Yields fun _ => True := by
  refine (yields_demand ⟨m.captures[0], List.getElem?_eq_getElem (by omega), rfl⟩).bind ?_
  rintro _ rfl
  refine (yields_demand ⟨m.captures[1], List.getElem?_eq_getElem (by omega), rfl⟩).bind ?_
  rintro _ rfl
  refine (yields_demand_of_isSome (h.capture_liesIn (List.getElem_mem _))).bind fun _ _ => ?_
  exact (yields_demand_of_isSome (h.capture_liesIn (List.getElem_mem _))).bind fun _ _ => trivial

theorem yields_findTwin (t : Text) (name : String)
    (hp : p.IsUniform) (hgroups : 2 ≤ p.groups) :
    (findTwin t name p).Yields (IsFound p t) := by
  have hstands {m : Match} (hm : m ∈ p.matchesIn t) : p.StandsIn t m :=
    Pattern.standsIn_of_mem_matchesIn hm
  have htwin : ∀ m ∈ p.matchesIn t, (isTwin t m).Yields fun _ => True := by
    intro m hm
    have hm := hstands hm
    refine yields_isTwin hm ?_
    rwa [hm.length_captures hp]
  refine (yields_findM? htwin).bind fun o ho => ?_
  refine Yields.bind (yields_orSkip ho nofun) fun m hm => ?_
  exact (yields_ofMatch (hstands hm)).mono fun site hsite => ⟨⟨m, hstands hm, hsite.1⟩, hsite.2⟩

end Site

namespace Anchored

open Attempt

variable {p : Pattern} {t needle : Text} {name : String} {reach : Reach} {a : Anchored} {index : Nat}

/-- The anchor is where a given text stands, and the match is one of a given pattern. -/
structure IsFound (p : Pattern) (t needle : Text) (a : Anchored) : Prop where
  anchor : needle.StandsAt t a.anchor.start
  anchor_stop : a.anchor.stop = a.anchor.start + needle.size
  found : p.StandsIn t a.found

lemma mem_of_leastBy {α : Type} {key : α → Nat} {l : List α} {a : α} (h : leastBy key l = some a) :
    a ∈ l := by
  induction l generalizing a with
  | nil => cases h
  | cons b rest ih =>
    rw [leastBy] at h
    split at h
    · next c hc =>
      split at h
      · cases h
        exact List.mem_cons_of_mem b (ih hc)
      · cases h
        exact List.mem_cons_self
    · cases h
      exact List.mem_cons_self

/-- A search around an anchor looks at a part of the text that exists. -/
lemma isSome_window {anchor : Span} (h : anchor.LiesIn t) (reach : Reach) :
    (t.slice? (t.boundaryBefore (anchor.start - reach.before))
      (t.boundaryAfter (anchor.stop + reach.after))).isSome := by
  obtain ⟨hle, -, hstop⟩ := Span.liesIn_iff.1 h
  have hlow := t.boundaryBefore_le (anchor.start - reach.before)
  have hhigh : anchor.stop ≤ t.boundaryAfter (anchor.stop + reach.after) :=
    Text.le_boundaryAfter (by omega) (Text.le_size_of_isBoundary hstop)
  exact Text.isSome_slice?_iff.2 ⟨by omega, Text.isBoundary_boundaryBefore _ _,
    Text.isBoundary_boundaryAfter _ _⟩

lemma yields_nearest? {anchor : Span} (h : anchor.LiesIn t) : (nearest? t p.matchesIn reach anchor).Yields
    fun o => ∀ a, o = some a → a.anchor = anchor ∧ p.StandsIn t a.found := by
  refine (yields_demand_of_isSome (isSome_window h reach)).bind fun slice hslice => ?_
  rintro a ha
  obtain ⟨m, hm, rfl⟩ := Option.map_eq_some_iff.1 ha
  obtain ⟨m', hm', rfl⟩ := List.mem_map.1 (mem_of_leastBy hm)
  exact ⟨rfl, (Pattern.standsIn_of_mem_matchesIn hm').shift hslice⟩

theorem yields_find (t : Text) (name : String) (needle : Text) (reach : Reach) (p : Pattern) :
    (find t name needle reach p).Yields (IsFound p t needle) := by
  refine (yields_findSomeM? fun start hstart => ?_).bind fun o ho => yields_orSkip ho nofun
  have hstands := Text.standsAt_of_mem_occurrences hstart
  refine (yields_nearest? hstands.liesIn).mono fun o ho a ha => ?_
  obtain ⟨hanchor, hfound⟩ := ho a ha
  exact ⟨by rwa [hanchor], by rw [hanchor], hfound⟩

lemma yields_captureSpan (h : p.StandsIn t a.found) :
    (a.captureSpan name index).Yields fun s => a.found.captures[index]? = some s ∧ s.LiesIn t :=
  yields_orSkip (fun _ hs => ⟨hs, h.capture_liesIn (List.mem_of_getElem? hs)⟩) nofun

lemma yields_capture (h : p.StandsIn t a.found) : (a.capture t name index).Yields fun _ => True := by
  refine Yields.bind (P := fun _ => True) ?_ fun _ _ => yields_orSkip (fun _ _ => trivial) nofun
  unfold capture?
  split
  · next s hs =>
    have hliesIn := h.capture_liesIn (List.mem_of_getElem? hs)
    exact (yields_demand_of_isSome hliesIn).bind fun _ _ => trivial
  · trivial

end Anchored
end Retouch
