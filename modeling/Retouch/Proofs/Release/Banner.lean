import Retouch.Proofs.Pattern.Search
import Retouch.Proofs.Text.Boundary
import Retouch.Release

/-! The banner behind a byte order mark. A mark that is kept takes the beginning of the first line, so a
banner there is not seen, and it takes three bytes of what is searched. -/
namespace Retouch

namespace Text

/-- The characters that lie whole in the first bytes of a text. -/
def within (t : Text) (reach : Nat) : Text := (t.slice? 0 (t.boundaryBefore reach)).getD []

lemma slice?_boundaryBefore (t : Text) (reach : Nat) :
    t.slice? 0 (t.boundaryBefore reach) = some (t.within reach) := by
  have hsome := isSome_slice?_iff.2
    ⟨Nat.zero_le _, t.isBoundary_zero, t.isBoundary_boundaryBefore reach⟩
  obtain ⟨head, hhead⟩ := Option.isSome_iff_exists.1 hsome
  rw [within, hhead, Option.getD_some]

/-- What fills the first bytes is all that lies in them. -/
lemma within_append (head tail : Text) : within (head ++ tail) head.size = head := by
  have hbefore : boundaryBefore (head ++ tail) head.size = head.size :=
    Nat.le_antisymm (boundaryBefore_le _ _) (le_boundaryBefore (isBoundary_append_size head tail) (Nat.le_refl _))
  have hslice := slice?_append [] head tail
  rw [size_nil, Nat.zero_add, List.nil_append] at hslice
  rw [within, hbefore, hslice, Option.getD_some]

lemma within_cons (c : Char) (t : Text) (reach : Nat) :
    within (c :: t) (c.utf8Size + reach) = c :: t.within reach := by
  obtain ⟨a, b, ht, ha, hsize⟩ := slice?_eq_some.1 (slice?_boundaryBefore t reach)
  have hslice : slice? (c :: t) 0 (c.utf8Size + t.boundaryBefore reach) =
      some (c :: t.within reach) := by
    refine slice?_eq_some.2 ⟨[], b, ?_, rfl, ?_⟩
    · rw [size_eq_zero.1 ha] at ht
      simpa using ht
    · rw [size_nil, size_cons]
      omega
  rw [within, boundaryBefore_cons, hslice, Option.getD_some]

end Text

namespace Release

open Pattern

/-- The release whose parts a match of the banner has captured. -/
def ofMatch? (head : Text) (m : Match) : Option Release :=
  match m.captures with
  | [a, b, c] =>
    let part (s : Span) : Option UInt32 := do part? (← head.slice? s.start s.stop)
    do return ⟨← part a, ← part b, ← part c⟩
  | _ => none

/-- The release that the first banner names which does not stand at the very beginning. -/
def ofLaterBanner? (reach : Nat) (t : Text) : Option Release :=
  ((banner.everywhere none 0 (t.within reach)).find? (0 < ·.span.start)).bind
    (ofMatch? (t.within reach))

lemma ofBanner?_eq (t : Text) :
    ofBanner? t =
      ((banner.everywhere none 0 (t.within bannerReach)).head?).bind
        (ofMatch? (t.within bannerReach)) := by
  rw [← find?_eq, ofBanner?, Text.slice?_boundaryBefore, Option.bind_eq_bind, Option.bind_some]
  cases banner.find? (t.within bannerReach) with
  | none => rfl
  | some m =>
    obtain ⟨span, captures⟩ := m
    match captures with
    | [] | [_] | [_, _] | [_, _, _] | _ :: _ :: _ :: _ :: _ => rfl

lemma ofMatch?_shift (c : Char) (t : Text) (m : Match) :
    ofMatch? (c :: t) (m.shift c.utf8Size) = ofMatch? t m := by
  obtain ⟨span, captures⟩ := m
  match captures with
  | [] | [_] | [_, _] | _ :: _ :: _ :: _ :: _ => rfl
  | [a, b, d] =>
    simp only [ofMatch?, Match.shift, List.map_cons, List.map_nil, Span.shift, Text.slice?_cons]

/-- A banner starts with two slashes at the beginning of a line. -/
lemma matchHere?_banner_eq_none {c : Cursor}
    (h : c.isLineStart = false ∨ ∃ x rest, c.rest = x :: rest ∧ x ≠ '/') :
    banner.matchHere? c = none := by
  have hslashes (p : Pattern) : (lineStart.seq ((text "//").seq p)).advance [c] = [] := by
    rcases h with h | ⟨x, rest, h, hx⟩
    · simp [advance, h]
    · by_cases hline : c.isLineStart
      · simp [advance, hline, text, Cursor.after?, Cursor.next?, h, Ne.symm hx]
      · simp [advance, hline]
  have hbanner : banner.advance [c] = [] := hslashes _
  rw [matchHere?, hbanner]
  rfl

lemma head?_everywhere_after_mark (t : Text) :
    (banner.everywhere (some '\ufeff') 0 t).head? =
      (banner.everywhere none 0 t).find? (0 < ·.span.start) := by
  have hmark (t : Text) : banner.matchHere? ⟨some '\ufeff', 0, t, []⟩ = none :=
    matchHere?_banner_eq_none (.inl rfl)
  have hskip (t : Text) : (banner.matchHere? ⟨none, 0, t, []⟩).toList.find? (0 < ·.span.start) =
      none := by
    refine List.find?_eq_none.2 fun m hm => ?_
    simp [start_of_matchHere? (Option.mem_toList.1 hm)]
  cases t with
  | nil => rw [everywhere, everywhere, hmark, hskip]; rfl
  | cons c rest =>
    rw [everywhere, everywhere, hmark, List.find?_append, hskip]
    have hall : ∀ m ∈ banner.everywhere (some c) (0 + c.utf8Size) rest, 0 < m.span.start := by
      intro m hm
      have := le_start_of_mem_everywhere hm
      have := c.utf8Size_pos
      omega
    have hfilter : (banner.everywhere (some c) (0 + c.utf8Size) rest).filter (0 < ·.span.start) =
        banner.everywhere (some c) (0 + c.utf8Size) rest :=
      List.filter_eq_self.2 fun m hm => decide_eq_true (hall m hm)
    rw [Option.none_or, Option.toList_none, List.nil_append, ← List.head?_filter, hfilter]

theorem ofBanner?_mark_cons (t : Text) :
    ofBanner? ('\ufeff' :: t) = ofLaterBanner? (bannerReach - 3) t := by
  have hwithin : Text.within ('\ufeff' :: t) bannerReach = '\ufeff' :: t.within (bannerReach - 3) :=
    Text.within_cons '\ufeff' t (bannerReach - 3)
  have hnone : banner.matchHere? ⟨none, 0, '\ufeff' :: t.within (bannerReach - 3), []⟩ = none :=
    matchHere?_banner_eq_none (.inr ⟨_, _, rfl, by decide⟩)
  rw [ofBanner?_eq, hwithin, everywhere, hnone, Option.toList_none, List.nil_append, Nat.add_comm,
    everywhere_move, List.head?_map, head?_everywhere_after_mark, ofLaterBanner?, Option.bind_map]
  congr 1
  funext m
  exact ofMatch?_shift _ _ m

end Release
end Retouch
