import Retouch.Proofs.Text.Found
import Retouch.Proofs.Text.Pieces
import Retouch.Proofs.Text.Utf8
import Retouch.Text.Line

/-! A text line by line. Lines joined again are the text they come from, up to a line feed at its very end, if all
of them end in single line feeds. -/
namespace Retouch.Text

variable {line s t : Text}

/-- A text is its last line, without a line feed, or has a line before such a text. -/
@[elab_as_elim] lemma line_induction {P : Text → Prop} (last : ∀ line, '\n' ∉ line → P line)
    (more : ∀ line t, '\n' ∉ line → P t → P (line ++ '\n' :: t)) (t : Text) : P t :=
  if h : '\n' ∈ t then by
    obtain ⟨line, rest, ht, hline⟩ := List.eq_append_cons_of_mem h
    exact ht ▸ more line rest hline (line_induction last more rest)
  else last t h
termination_by t.length
decreasing_by simp only [ht, List.length_append, List.length_cons]; omega

lemma lines_go_append (h : '\n' ∉ s) (line t : Text) :
    lines.go line (s ++ t) = lines.go (s.reverse ++ line) t := by
  induction s generalizing line with
  | nil => rfl
  | cons c s ih =>
    obtain ⟨hc, hs⟩ := List.ne_and_not_mem_of_not_mem_cons h
    rw [List.cons_append, lines.go.eq_3 _ _ _ fun he => hc he.symm, ih hs, List.reverse_cons, List.append_assoc]
    rfl

lemma lines_of_not_mem (h : '\n' ∉ line) : lines line = if line.isEmpty then [] else [line] := by
  have hgo := lines_go_append h [] []
  rw [List.append_nil, List.append_nil] at hgo
  rw [lines, hgo, lines.go, List.isEmpty_reverse, List.reverse_reverse]

lemma lines_cons (h : '\n' ∉ line) (t : Text) :
    lines (line ++ '\n' :: t) = dropReturn line.reverse :: lines t := by
  rw [lines, lines_go_append h, List.append_nil, lines.go, lines]

lemma lines_ne_nil (h : t ≠ []) : lines t ≠ [] := by
  induction t using line_induction with
  | last line hline => simp [lines_of_not_mem hline, h]
  | more line t hline _ => simp [lines_cons hline]

/-- Behind the end of a line the lines begin anew. -/
lemma lines_append (h : s.getLast? = some '\n') (t : Text) : lines (s ++ t) = lines s ++ lines t := by
  induction s using line_induction with
  | last line hline => exact absurd (List.mem_of_getLast? h) hline
  | more line s hline ih =>
    rw [List.append_assoc, List.cons_append, lines_cons hline, lines_cons hline, List.cons_append]
    cases s with
    | nil => rfl
    | cons c s => rw [ih (by simpa using h)]

/-! ## Lines joined again -/

/-- A line may end in a carriage return with a line feed. -/
def HasReturn (t : Text) : Prop := "\r\n".toList <:+: t

lemma HasReturn.mem (h : HasReturn t) : '\r' ∈ t ∧ '\n' ∈ t :=
  ⟨h.subset (by simp), h.subset (by simp)⟩

lemma hasReturn_append_iff (h : '\n' ∉ line) (t : Text) :
    HasReturn (line ++ '\n' :: t) ↔ line.getLast? = some '\r' ∨ HasReturn t := by
  induction line with
  | nil => simp [HasReturn, List.infix_cons_iff]
  | cons c line ih =>
    obtain ⟨hc, hline⟩ := List.ne_and_not_mem_of_not_mem_cons h
    rw [HasReturn, List.cons_append, List.infix_cons_iff, ← HasReturn, ih hline]
    cases line with
    | nil => simp [eq_comm]
    | cons d line =>
      have hd : '\n' ≠ d := (List.ne_and_not_mem_of_not_mem_cons hline).1
      simp [hd]

lemma mem_of_mem_dropReturn {c : Char} (h : c ∈ dropReturn line.reverse) : c ∈ line := by
  unfold dropReturn at h
  split at h
  · next front hfront =>
    obtain rfl := List.reverse_eq_cons_iff.1 hfront
    exact List.mem_append_left _ h
  · rwa [List.reverse_reverse] at h

lemma dropReturn_reverse_eq_iff : dropReturn line.reverse = line ↔ line.getLast? ≠ some '\r' := by
  unfold dropReturn
  split
  · next front hfront =>
    obtain rfl := List.reverse_eq_cons_iff.1 hfront
    simp
  · next hother =>
    rw [List.reverse_reverse, eq_self_iff_true, true_iff]
    intro hlast
    obtain ⟨front, rfl⟩ := List.getLast?_eq_some_iff.1 hlast
    exact hother front.reverse (by simp)

lemma join_lines_cons (h : '\n' ∉ line) (t : Text) : join ['\n'] (lines (line ++ '\n' :: t)) =
    dropReturn line.reverse ++ if t = [] then [] else '\n' :: join ['\n'] (lines t) := by
  rw [lines_cons h]
  split
  · next ht =>
    subst ht
    simp [lines, lines.go, join]
  · next ht =>
    obtain ⟨u, us, hlines⟩ := List.exists_cons_of_ne_nil (lines_ne_nil ht)
    rw [hlines, join_cons_cons, List.singleton_append]

/-- Lines joined again are the text without the line feed at its end. -/
lemma join_lines (h : ¬HasReturn t) :
    join ['\n'] (lines t) ++ (if t.getLast? = some '\n' then ['\n'] else []) = t := by
  induction t using line_induction with
  | last line hline =>
    have hlast : line.getLast? ≠ some '\n' := fun he => hline (List.mem_of_getLast? he)
    cases line <;> simp [lines_of_not_mem hline, join, hlast]
  | more line t hline ih =>
    rw [hasReturn_append_iff hline, not_or] at h
    rw [join_lines_cons hline, dropReturn_reverse_eq_iff.2 h.1]
    cases t with
    | nil => simp
    | cons c t => simpa using ih h.2

lemma not_hasReturn_of_join_lines (h : join ['\n'] (lines t) = t) : ¬HasReturn t := by
  induction t using line_induction with
  | last line hline => exact fun hreturn => hline hreturn.mem.2
  | more line t hline ih =>
    have hfront : '\n' ∉ dropReturn line.reverse := fun he => hline (mem_of_mem_dropReturn he)
    rw [join_lines_cons hline] at h
    rw [hasReturn_append_iff hline, not_or]
    split at h
    · rw [List.append_nil] at h
      exact absurd (h ▸ List.mem_append_right line List.mem_cons_self) hfront
    · -- both sides are split at their first line feed
      have hsplit := splitOnce?_append hfront (join ['\n'] (lines t))
      rw [h, splitOnce?_append hline] at hsplit
      simp only [Option.some.injEq, Prod.mk.injEq] at hsplit
      exact ⟨dropReturn_reverse_eq_iff.1 hsplit.1.symm, ih hsplit.2.symm⟩

/-- Lines joined again are the text they come from if it has no other line ends and does not end in one. -/
lemma join_lines_eq_iff : join ['\n'] (lines t) = t ↔ ¬HasReturn t ∧ t.getLast? ≠ some '\n' := by
  constructor
  · intro h
    have hreturn := not_hasReturn_of_join_lines h
    refine ⟨hreturn, fun hlast => ?_⟩
    have hjoin := join_lines hreturn
    rw [if_pos hlast, h] at hjoin
    simp at hjoin
  · rintro ⟨hreturn, hlast⟩
    have hjoin := join_lines hreturn
    rwa [if_neg hlast, List.append_nil] at hjoin

/-! ## Lines with their ends -/

/-- Lines, each with its end behind it. -/
def withEnds {α : Type} (feed : α) (ls : List (List α)) : List α := ls.flatMap (· ++ [feed])

section WithEnds

variable {α : Type} {feed : α} {ls ls' : List (List α)}

@[simp] lemma withEnds_nil : withEnds feed [] = [] := rfl

@[simp] lemma withEnds_cons (l : List α) : withEnds feed (l :: ls) = l ++ feed :: withEnds feed ls := by
  simp [withEnds]

@[simp] lemma withEnds_append : withEnds feed (ls ++ ls') = withEnds feed ls ++ withEnds feed ls' :=
  List.flatMap_append

lemma getLast?_withEnds (h : ls ≠ []) : (withEnds feed ls).getLast? = some feed := by
  obtain ⟨front, l, rfl⟩ := (List.eq_nil_or_concat ls).resolve_left h
  simp

end WithEnds

/-- Lines with their ends are read as the lines, unless one has an end in it. -/
lemma lines_withEnds {ls : List Text} (h : ∀ l ∈ ls, '\n' ∉ l ∧ '\r' ∉ l) : lines (withEnds '\n' ls) = ls := by
  induction ls with
  | nil => rfl
  | cons l ls ih =>
    obtain ⟨⟨hfeed, hreturn⟩, hls⟩ := List.forall_mem_cons.1 h
    have hdrop : dropReturn l.reverse = l :=
      dropReturn_reverse_eq_iff.2 fun hlast => hreturn (List.mem_of_getLast? hlast)
    rw [withEnds_cons, lines_cons hfeed, hdrop, ih hls]

lemma join_append_feed {ls : List Text} (h : ls ≠ []) : join ['\n'] ls ++ ['\n'] = withEnds '\n' ls := by
  induction ls with
  | nil => exact absurd rfl h
  | cons l ls ih =>
    cases ls with
    | nil => simp [join]
    | cons m ls =>
      rw [join_cons_cons, withEnds_cons, ← ih (List.cons_ne_nil m ls)]
      simp

lemma bytes_withEnds (ls : List Text) : bytes (withEnds '\n' ls) = withEnds 0x0A (ls.map bytes) := by
  have hfeed (t : Text) : bytes ('\n' :: t) = 0x0A :: bytes t := rfl
  induction ls with
  | nil => rfl
  | cons l ls ih => rw [withEnds_cons, bytes_append, hfeed, ih, List.map_cons, withEnds_cons]

/-- A line feed has a byte of its own, so a text whose bytes are lines is made of lines. -/
lemma exists_withEnds_of_bytes_eq {ls : List (List UInt8)} (h : t.bytes = withEnds 0x0A ls) :
    ∃ us : List Text, t = withEnds '\n' us ∧ us.map bytes = ls := by
  induction ls generalizing t with
  | nil => exact ⟨[], Utf8.bytes_injective h, rfl⟩
  | cons l ls ih =>
    rw [withEnds_cons] at h
    obtain ⟨hstart, hstop⟩ := isBoundary_of_bytes_eq h (by decide)
    obtain ⟨u, feed, rest, rfl, hu, hfeed⟩ := exists_append_of_isBoundary hstart hstop (Nat.le_succ _)
    rw [size_append, hu] at hfeed
    rw [bytes_append, bytes_append, List.append_assoc] at h
    obtain ⟨hline, h⟩ := List.append_inj h (by rw [length_bytes, hu])
    have hsplit : feed.bytes ++ rest.bytes = [0x0A] ++ withEnds 0x0A ls := h
    obtain ⟨hbyte, hrest⟩ := List.append_inj hsplit (by rw [length_bytes, List.length_singleton]; omega)
    obtain rfl : feed = ['\n'] := Utf8.bytes_injective hbyte
    obtain ⟨us, rfl, rfl⟩ := ih hrest
    exact ⟨u :: us, by simp, by rw [List.map_cons, hline]⟩

end Retouch.Text
