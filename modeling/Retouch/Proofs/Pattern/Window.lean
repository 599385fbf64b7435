import Retouch.Proofs.Pattern.Site
import Retouch.Proofs.Text.Occurrences

/-! What a search around an anchor reports, whatever it looks for there. It looks at a window of the text, whose
ends are the boundaries next to where its reach ends; the first anchor with a match in its window decides, and of
the matches there the nearest is reported, the first of several. What is reported lies in the window and has the
text of the match. -/
namespace Retouch

/-- The part of a text that is within reach of an anchor. -/
structure Window (t : Text) (reach : Reach) (anchor : Span) where
  low : Nat
  high : Nat
  slice : Text
  slice_eq : t.slice? low high = some slice
  low_le : low ≤ anchor.start - reach.before
  le_low : ∀ n, t.isBoundary n → n ≤ anchor.start - reach.before → n ≤ low
  le_high : min (anchor.stop + reach.after) t.size ≤ high
  high_le : ∀ n, t.isBoundary n → min (anchor.stop + reach.after) t.size ≤ n → high ≤ n

namespace Window

variable {t : Text} {reach : Reach} {anchor s : Span}

/-- Around an anchor of the text there is a window. -/
lemma nonempty (h : anchor.LiesIn t) (reach : Reach) : Nonempty (Window t reach anchor) := by
  obtain ⟨slice, hslice⟩ := Option.isSome_iff_exists.1 (Anchored.isSome_window h reach)
  refine ⟨⟨_, _, slice, hslice, t.boundaryBefore_le _, fun n => Text.le_boundaryBefore, ?_, ?_⟩⟩
  · exact Text.le_boundaryAfter (Nat.min_le_left _ _) (Nat.min_le_right _ _)
  · intro n hn hle
    rcases Nat.le_total (anchor.stop + reach.after) t.size with hreach | hreach
    · rw [Nat.min_eq_left hreach] at hle
      exact Text.boundaryAfter_le hn hle
    · rw [Nat.min_eq_right hreach] at hle
      exact Nat.le_trans (Text.le_size_of_isBoundary (Text.isBoundary_boundaryAfter t _)) hle

lemma liesIn (w : Window t reach anchor) : Span.LiesIn ⟨w.low, w.high⟩ t :=
  Option.isSome_of_eq_some w.slice_eq

lemma low_eq (w : Window t reach anchor) : w.low = t.boundaryBefore (anchor.start - reach.before) := by
  obtain ⟨-, hlow, -⟩ := Span.liesIn_iff.1 w.liesIn
  exact Nat.le_antisymm (Text.le_boundaryBefore hlow w.low_le)
    (w.le_low _ (Text.isBoundary_boundaryBefore t _) (t.boundaryBefore_le _))

lemma high_eq (w : Window t reach anchor) : w.high = t.boundaryAfter (anchor.stop + reach.after) := by
  obtain ⟨-, -, hhigh⟩ := Span.liesIn_iff.1 w.liesIn
  have hsize := Text.le_size_of_isBoundary (Text.isBoundary_boundaryAfter t (anchor.stop + reach.after))
  refine Nat.le_antisymm (w.high_le _ (Text.isBoundary_boundaryAfter t _) ?_) ?_
  · exact Text.le_boundaryAfter (Nat.min_le_left _ _) (Nat.min_le_right _ _)
  · rcases Nat.le_total (anchor.stop + reach.after) t.size with hreach | hreach
    · exact Text.boundaryAfter_le hhigh (Nat.min_eq_left hreach ▸ w.le_high)
    · exact Nat.le_trans hsize (Nat.min_eq_right hreach ▸ w.le_high)

/-- The text leaves no choice to a window. -/
lemma eq (w w' : Window t reach anchor) : w.slice = w'.slice := by
  have h := w'.slice_eq
  rw [w'.low_eq, w'.high_eq, ← w.low_eq, ← w.high_eq, w.slice_eq] at h
  exact Option.some.inj h

/-- What holds of the slice of some window holds of that of each. -/
lemma exists_slice_iff (w : Window t reach anchor) (P : Text → Prop) :
    (∃ w' : Window t reach anchor, P w'.slice) ↔ P w.slice :=
  ⟨fun ⟨w', hslice⟩ => w'.eq w ▸ hslice, fun hslice => ⟨w, hslice⟩⟩

/-- A span of the window is a span of the text, within the ends of the window and with the same text. -/
structure Shows (w : Window t reach anchor) (s : Span) : Prop where
  low_le : w.low ≤ (s.shift w.low).start
  start_le : (s.shift w.low).start ≤ (s.shift w.low).stop
  le_high : (s.shift w.low).stop ≤ w.high
  isBoundary_start : t.isBoundary (s.shift w.low).start
  isBoundary_stop : t.isBoundary (s.shift w.low).stop
  same : ∃ m, w.slice.slice? s.start s.stop = some m ∧
    t.slice? (s.shift w.low).start (s.shift w.low).stop = some m

lemma shows (w : Window t reach anchor) (h : s.LiesIn w.slice) : w.Shows s := by
  obtain ⟨hle, hstart, hstop⟩ := Span.liesIn_iff.1 (h.shift w.slice_eq)
  obtain ⟨m, hm⟩ := Option.isSome_iff_exists.1 h
  obtain ⟨before, after, ht, hbefore, hafter⟩ := Text.slice?_eq_some.1 w.slice_eq
  obtain ⟨front, rest, hslice, hfront, hrest⟩ := Text.slice?_eq_some.1 hm
  have hhigh : w.low + s.stop ≤ w.high := by
    rw [← hafter, hbefore, hslice, ← hrest]
    simp
  refine ⟨Nat.le_add_right _ _, hle, hhigh, hstart, hstop, m, hm, ?_⟩
  refine Text.slice?_eq_some.2 ⟨before ++ front, rest ++ after, ?_, ?_, ?_⟩
  · rw [ht, hslice]
    simp
  · rw [Text.size_append, hbefore, hfront]
    rfl
  · rw [Text.size_append, hbefore, Nat.add_assoc, hrest]
    rfl

end Window

/-- What a pattern finds lies in the text. -/
lemma Pattern.spans_liesIn {p : Pattern} {t : Text} {m : Match} (h : m ∈ p.matchesIn t) :
    ∀ s ∈ m.span :: m.captures, s.LiesIn t := by
  have hstands := standsIn_of_mem_matchesIn h
  exact List.forall_mem_cons.2 ⟨hstands.span_liesIn, fun s => hstands.capture_liesIn⟩

namespace Anchored

open Attempt

variable {search : Text → List Match} {t needle : Text} {name : String} {reach : Reach} {anchor : Span}
  {a : Anchored} {n : Nat}

/-! ## The least of several -/

section Least

variable {α : Type} {key : α → Nat} {x : α} {xs : List α}

lemma leastBy_eq_none_iff : leastBy key xs = none ↔ xs = [] := by
  cases xs with
  | nil => exact ⟨fun _ => rfl, fun _ => rfl⟩
  | cons x xs =>
    rw [leastBy]
    split
    · split <;> simp
    · simp

lemma leastBy_eq_some_iff : leastBy key xs = some x ↔ ∃ front back, xs = front ++ x :: back ∧
    (∀ y ∈ front, key x < key y) ∧ ∀ y ∈ back, key x ≤ key y := by
  induction xs generalizing x with
  | nil => simp [leastBy]
  | cons z xs ih =>
    have hfirst (hle : ∀ y ∈ xs, key z ≤ key y) : ∃ front back, z :: xs = front ++ z :: back ∧
        (∀ y ∈ front, key z < key y) ∧ ∀ y ∈ back, key z ≤ key y :=
      ⟨[], xs, rfl, List.forall_mem_nil _, hle⟩
    constructor
    · intro h
      rw [leastBy] at h
      split at h
      · next y hy =>
        obtain ⟨front, back, rfl, hfront, hback⟩ := ih.1 hy
        split at h
        · next hlt =>
          obtain rfl := Option.some.inj h
          exact ⟨z :: front, back, rfl, List.forall_mem_cons.2 ⟨hlt, hfront⟩, hback⟩
        · next hle =>
          obtain rfl := Option.some.inj h
          refine hfirst fun w hw => ?_
          rcases List.mem_append.1 hw with hw | hw
          · exact Nat.le_trans (Nat.not_lt.1 hle) (Nat.le_of_lt (hfront w hw))
          · rcases List.mem_cons.1 hw with rfl | hw
            · exact Nat.not_lt.1 hle
            · exact Nat.le_trans (Nat.not_lt.1 hle) (hback w hw)
      · next hnone =>
        obtain rfl := Option.some.inj h
        obtain rfl := leastBy_eq_none_iff.1 hnone
        exact hfirst (List.forall_mem_nil _)
    · rintro ⟨front, back, hxs, hfront, hback⟩
      rw [leastBy]
      cases front with
      | nil =>
        obtain ⟨rfl, rfl⟩ := List.cons.inj hxs
        split
        · next y hy => rw [if_neg (Nat.not_lt.2 (hback y (mem_of_leastBy hy)))]
        · rfl
      | cons w front =>
        obtain ⟨rfl, rfl⟩ := List.cons.inj hxs
        obtain ⟨hlt, hfront⟩ := List.forall_mem_cons.1 hfront
        rw [ih.2 ⟨front, back, rfl, hfront, hback⟩]
        exact if_pos hlt

end Least

/-! ## The search -/

/-- What a search has in reach of an anchor, from left to right. -/
def reached (search : Text → List Match) (t : Text) (reach : Reach) (anchor : Span) : List Match :=
  let low := t.boundaryBefore (anchor.start - reach.before)
  let slice := t.slice? low (t.boundaryAfter (anchor.stop + reach.after))
  ((slice.map search).getD []).map (·.shift low)

lemma reached_eq (w : Window t reach anchor) : reached search t reach anchor =
    (search w.slice).map (·.shift w.low) := by
  have hslice := w.slice_eq
  rw [w.low_eq, w.high_eq] at hslice
  simp only [reached, w.low_eq, hslice, Option.map_some, Option.getD_some]

lemma reached_eq_nil_iff (h : anchor.LiesIn t) : reached search t reach anchor = [] ↔
    ∃ w : Window t reach anchor, search w.slice = [] := by
  obtain ⟨w⟩ := Window.nonempty h reach
  rw [reached_eq w, List.map_eq_nil_iff, w.exists_slice_iff fun slice => search slice = []]

lemma reached_ne_nil_iff (h : anchor.LiesIn t) : reached search t reach anchor ≠ [] ↔
    ∃ w : Window t reach anchor, search w.slice ≠ [] := by
  obtain ⟨w⟩ := Window.nonempty h reach
  rw [reached_eq w, ne_eq, List.map_eq_nil_iff, w.exists_slice_iff fun slice => search slice ≠ []]

lemma nearest?_eq (h : anchor.LiesIn t) : nearest? t search reach anchor =
    .ok ((leastBy (distance anchor ·.span) (reached search t reach anchor)).map (⟨anchor, ·⟩)) := by
  obtain ⟨slice, hslice⟩ := Option.isSome_iff_exists.1 (isSome_window h reach)
  simp only [nearest?, reached, hslice]
  rfl

/-- What the search makes of an anchor. -/
def nearestAt (search : Text → List Match) (t needle : Text) (reach : Reach) (n : Nat) : Option Anchored :=
  let anchor : Span := ⟨n, n + needle.size⟩
  (leastBy (distance anchor ·.span) (reached search t reach anchor)).map (⟨anchor, ·⟩)

lemma nearestAt_eq_none_iff : nearestAt search t needle reach n = none ↔
    reached search t reach ⟨n, n + needle.size⟩ = [] := by
  rw [nearestAt, Option.map_eq_none_iff, leastBy_eq_none_iff]

lemma nearestAt_eq_some_iff : nearestAt search t needle reach n = some a ↔
    a.anchor = ⟨n, n + needle.size⟩ ∧ ∃ front back, reached search t reach a.anchor = front ++ a.found :: back ∧
      (∀ m ∈ front, distance a.anchor a.found.span < distance a.anchor m.span) ∧
      ∀ m ∈ back, distance a.anchor a.found.span ≤ distance a.anchor m.span := by
  obtain ⟨anchor, found⟩ := a
  rw [nearestAt, Option.map_eq_some_iff]
  constructor
  · rintro ⟨m, hm, heq⟩
    obtain ⟨rfl, rfl⟩ := Anchored.mk.inj heq
    exact ⟨rfl, leastBy_eq_some_iff.1 hm⟩
  · rintro ⟨rfl, hleast⟩
    exact ⟨found, leastBy_eq_some_iff.2 hleast, rfl⟩

lemma findBy_eq (search : Text → List Match) (t : Text) (name : String) (needle : Text) (reach : Reach) :
    findBy search t name needle reach =
      orSkip ((t.occurrences needle).findSome? (nearestAt search t needle reach)) (.noMatch name) := by
  have hat : ∀ n ∈ t.occurrences needle, nearest? t search reach ⟨n, n + needle.size⟩ =
      .ok (nearestAt search t needle reach n) :=
    fun n hn => nearest?_eq (Text.standsAt_of_mem_occurrences hn).liesIn
  rw [findBy, findSomeM?_of_ok hat]
  rfl

theorem findBy_eq_ok_iff : findBy search t name needle reach = .ok a ↔
    ∃ before later, t.occurrences needle = before ++ a.anchor.start :: later ∧
      (∀ n ∈ before, nearestAt search t needle reach n = none) ∧
      nearestAt search t needle reach a.anchor.start = some a := by
  rw [findBy_eq, orSkip_eq_ok, List.findSome?_eq_some_iff]
  constructor
  · rintro ⟨before, n, later, hplaces, hn, hbefore⟩
    obtain rfl : a.anchor.start = n := by rw [(nearestAt_eq_some_iff.1 hn).1]
    exact ⟨before, later, hplaces, hbefore, hn⟩
  · rintro ⟨before, later, hplaces, hbefore, hn⟩
    exact ⟨before, _, later, hplaces, hn, hbefore⟩

/-! ## What is reported -/

/-- At the first place of the anchor with a match in its window, the nearest match is reported. -/
structure Reports (search : Text → List Match) (t needle : Text) (reach : Reach) (a : Anchored) : Prop where
  first : ∃ before later, needle.Scans t 0 (before ++ a.anchor.start :: later) ∧
    ∀ n ∈ before, ∃ w : Window t reach ⟨n, n + needle.size⟩, search w.slice = []
  anchor_stop : a.anchor.stop = a.anchor.start + needle.size
  nearest : ∃ w : Window t reach a.anchor, ∃ front m back, search w.slice = front ++ m :: back ∧
    a.found = m.shift w.low ∧ (∀ s ∈ m.span :: m.captures, w.Shows s) ∧
    (∀ m' ∈ front, distance a.anchor a.found.span < distance a.anchor (m'.shift w.low).span) ∧
    ∀ m' ∈ back, distance a.anchor a.found.span ≤ distance a.anchor (m'.shift w.low).span

lemma exists_nearest_iff (w : Window t reach anchor) {found : Match} :
    (∃ front back, reached search t reach anchor = front ++ found :: back ∧
      (∀ m ∈ front, distance anchor found.span < distance anchor m.span) ∧
      ∀ m ∈ back, distance anchor found.span ≤ distance anchor m.span) ↔
    ∃ front m back, search w.slice = front ++ m :: back ∧ found = m.shift w.low ∧
      (∀ m' ∈ front, distance anchor found.span < distance anchor (m'.shift w.low).span) ∧
      ∀ m' ∈ back, distance anchor found.span ≤ distance anchor (m'.shift w.low).span := by
  rw [reached_eq w]
  constructor
  · rintro ⟨front, back, hmap, hfront, hback⟩
    obtain ⟨front, later, hslice, rfl, hlater⟩ := List.map_eq_append_iff.1 hmap
    obtain ⟨m, back, rfl, rfl, rfl⟩ := List.map_eq_cons_iff.1 hlater
    exact ⟨front, m, back, hslice, rfl, fun m' hm' => hfront _ (List.mem_map_of_mem hm'),
      fun m' hm' => hback _ (List.mem_map_of_mem hm')⟩
  · rintro ⟨front, m, back, hslice, rfl, hfront, hback⟩
    refine ⟨_, _, by rw [hslice, List.map_append, List.map_cons], ?_, ?_⟩
    · exact List.forall_mem_map.2 hfront
    · exact List.forall_mem_map.2 hback

section Places

variable (hn : n ∈ t.occurrences needle)
include hn

lemma nearestAt_eq_none_iff_window : nearestAt search t needle reach n = none ↔
    ∃ w : Window t reach ⟨n, n + needle.size⟩, search w.slice = [] := by
  rw [nearestAt_eq_none_iff, reached_eq_nil_iff (Text.standsAt_of_mem_occurrences hn).liesIn]

lemma isSome_nearestAt_iff_window : (nearestAt search t needle reach n).isSome ↔
    ∃ w : Window t reach ⟨n, n + needle.size⟩, search w.slice ≠ [] := by
  rw [← reached_ne_nil_iff (Text.standsAt_of_mem_occurrences hn).liesIn, ne_eq, ← nearestAt_eq_none_iff,
    Option.isSome_iff_ne_none]

end Places

lemma exists_findBy_eq_ok_iff : (∃ a, findBy search t name needle reach = .ok a) ↔
    ∃ n ∈ t.occurrences needle, ∃ w : Window t reach ⟨n, n + needle.size⟩, search w.slice ≠ [] := by
  simp only [findBy_eq, orSkip_eq_ok]
  rw [← Option.isSome_iff_exists, List.findSome?_isSome_iff]
  exact exists_congr fun n => and_congr_right fun hn => isSome_nearestAt_iff_window hn

lemma findBy_eq_noMatch_iff : findBy search t name needle reach = .error (.skip (.noMatch name)) ↔
    ∀ n ∈ t.occurrences needle, ∃ w : Window t reach ⟨n, n + needle.size⟩, search w.slice = [] := by
  have hskip : findBy search t name needle reach = .error (.skip (.noMatch name)) ↔
      (t.occurrences needle).findSome? (nearestAt search t needle reach) = none := by
    rw [findBy_eq]
    cases (t.occurrences needle).findSome? (nearestAt search t needle reach) with
    | none => exact iff_of_true rfl rfl
    | some a => exact iff_of_false nofun nofun
  rw [hskip, List.findSome?_eq_none_iff]
  exact forall₂_congr fun n hn => nearestAt_eq_none_iff_window hn

lemma findBy_eq_ok_iff_reports (hneedle : needle ≠ [])
    (hsearch : ∀ slice, ∀ m ∈ search slice, ∀ s ∈ m.span :: m.captures, s.LiesIn slice) :
    findBy search t name needle reach = .ok a ↔ Reports search t needle reach a := by
  have hscans := Text.scans_occurrences hneedle t
  rw [findBy_eq_ok_iff]
  constructor
  · rintro ⟨before, later, hplaces, hbefore, ha⟩
    have hbefore' : ∀ n ∈ before, ∃ w : Window t reach ⟨n, n + needle.size⟩, search w.slice = [] := by
      refine fun n hn => (nearestAt_eq_none_iff_window ?_).1 (hbefore n hn)
      rw [hplaces]
      exact List.mem_append_left _ hn
    have hplace : a.anchor.start ∈ t.occurrences needle :=
      hplaces ▸ List.mem_append_right before List.mem_cons_self
    obtain ⟨hanchor, hnearest⟩ := nearestAt_eq_some_iff.1 ha
    have hliesIn : a.anchor.LiesIn t := hanchor ▸ (Text.standsAt_of_mem_occurrences hplace).liesIn
    obtain ⟨w⟩ := Window.nonempty hliesIn reach
    obtain ⟨front, m, back, hslice, hfound, hleast⟩ := (exists_nearest_iff w).1 hnearest
    have hm : m ∈ search w.slice := hslice ▸ List.mem_append_right front List.mem_cons_self
    have hshows : ∀ s ∈ m.span :: m.captures, w.Shows s := fun s hs => w.shows (hsearch _ m hm s hs)
    exact ⟨⟨before, later, hplaces ▸ hscans, hbefore'⟩, by rw [hanchor],
      ⟨w, front, m, back, hslice, hfound, hshows, hleast⟩⟩
  · rintro ⟨⟨before, later, hplaces, hbefore⟩, hstop, w, front, m, back, hslice, hfound, -, hleast⟩
    have hplaces := hscans.eq hplaces
    have hanchor : a.anchor = ⟨a.anchor.start, a.anchor.start + needle.size⟩ := by rw [← hstop]
    have hnearest := (exists_nearest_iff w).2 ⟨front, m, back, hslice, hfound, hleast⟩
    refine ⟨before, later, hplaces, fun n hn => ?_, nearestAt_eq_some_iff.2 ⟨hanchor, hnearest⟩⟩
    refine (nearestAt_eq_none_iff_window ?_).2 (hbefore n hn)
    rw [hplaces]
    exact List.mem_append_left _ hn

/-- A search around an anchor succeeds if some place of the anchor has a match in its window, and reports the
nearest match of the first such place. -/
theorem findBy_iff_reports (hneedle : needle ≠ [])
    (hsearch : ∀ slice, ∀ m ∈ search slice, ∀ s ∈ m.span :: m.captures, s.LiesIn slice)
    (t : Text) (name : String) (reach : Reach) :
    (∃ places, needle.Scans t 0 places ∧
      ((∃ a, findBy search t name needle reach = .ok a) ↔
        ∃ n ∈ places, ∃ w : Window t reach ⟨n, n + needle.size⟩, search w.slice ≠ []) ∧
      (findBy search t name needle reach = .error (.skip (.noMatch name)) ↔
        ∀ n ∈ places, ∃ w : Window t reach ⟨n, n + needle.size⟩, search w.slice = [])) ∧
    ∀ a, findBy search t name needle reach = .ok a ↔ Reports search t needle reach a :=
  ⟨⟨t.occurrences needle, Text.scans_occurrences hneedle t, exists_findBy_eq_ok_iff, findBy_eq_noMatch_iff⟩,
    fun _ => findBy_eq_ok_iff_reports hneedle hsearch⟩

/-- The first anchor has no name in reach. Before the second one there are two, and the window begins within a
character. -/
def twoNames : Text := "ANCHOR……name:one,name:two✢ANCHOR".toList

def namePattern : Pattern := .all [.text "name:", .capture (.oneOrMore .word)]

theorem reports_nearer_name :
    Reports namePattern.matchesIn twoNames "ANCHOR".toList ⟨21, 0⟩ ⟨⟨32, 38⟩, ⟨⟨21, 29⟩, [⟨26, 29⟩]⟩⟩ := by
  have hsearch : ∀ slice, ∀ m ∈ namePattern.matchesIn slice, ∀ s ∈ m.span :: m.captures, s.LiesIn slice :=
    fun slice m => Pattern.spans_liesIn
  refine ((findBy_iff_reports ?_ hsearch twoNames "name" ⟨21, 0⟩).2 _).1 ?_
  · decide
  · decide +kernel

end Anchored
end Retouch
