import Retouch.Proofs.Literal.Decoding
import Retouch.Proofs.Literal.Substitution
import Retouch.Proofs.Prompt.Template

/-! A reference text rendered for a template literal. It is split where its pieces have their holes, so
its texts are encoded as they are between the pieces, and its variables give way to identifiers. -/
namespace Retouch

namespace Literal

/-! ## Alphabets -/

lemma usesEscapes_append_right {t : Text} (s : Text) (h : usesEscapes t = true) :
    usesEscapes (s ++ t) = true := by
  induction s with
  | nil => exact h
  | cons c s ih => rw [List.cons_append, usesEscapes, ih, Bool.or_true]

lemma isHexDigit_digitChar : ∀ k < 16, isHexDigit k.digitChar = true := by decide

lemma usesEscapes_unitEscape_append {u : Nat} (h : u < 0x10000) (t : Text) :
    usesEscapes (Text.unitEscape u ++ t) = true := by
  rw [Text.unitEscape, Text.hexPadded_four h]
  simp only [List.cons_append, List.nil_append, usesEscapes, startsWithEscape]
  simp [isHexDigit_digitChar _ (show u / 4096 < 16 by omega),
    isHexDigit_digitChar _ (show u / 256 % 16 < 16 by omega),
    isHexDigit_digitChar _ (show u / 16 % 16 < 16 by omega),
    isHexDigit_digitChar _ (show u % 16 < 16 by omega)]

/-- Text in which nothing has been escaped is ASCII. -/
lemma toAscii_eq_self_of_not_usesEscapes {t : Text} (h : usesEscapes (toAscii t) = false) :
    toAscii t = t := by
  refine inAlphabet_eq_self true fun c hc => ?_
  by_contra hascii
  obtain ⟨a, b, rfl⟩ := List.append_of_mem hc
  obtain ⟨u, us, hunits⟩ : ∃ u us, Text.units16 c = u :: us := by
    by_cases hlt : c.toNat < 0x10000
    · exact ⟨_, _, Text.units16_of_lt hlt⟩
    · exact ⟨_, _, Text.units16_of_not_lt hlt⟩
  have hu : u < 0x10000 := Text.lt_of_mem_units16 (c := c) (by simp [hunits])
  have huses := usesEscapes_append_right (toAscii a)
    (usesEscapes_unitEscape_append hu (us.flatMap Text.unitEscape ++ toAscii b))
  rw [toAscii_append, toAscii_cons, if_neg hascii, hunits, List.flatMap_cons, List.append_assoc,
    huses] at h
  cases h

/-- The alphabet of a region can be told from the region. -/
lemma inAlphabet_usesEscapes {escaped : Bool} {t : Text}
    (h : escaped = true ∨ usesEscapes t = false) :
    inAlphabet (usesEscapes (inAlphabet escaped t)) t = inAlphabet escaped t := by
  cases escaped with
  | false =>
    have hnone : usesEscapes (inAlphabet false t) = false := by simpa [inAlphabet] using h
    rw [hnone]
  | true =>
    cases huses : usesEscapes (inAlphabet true t) with
    | true => rfl
    | false => exact (toAscii_eq_self_of_not_usesEscapes huses).symm

end Literal

namespace Segment

open Literal

lemma sealed_of_noHole {t : Text} (h : ¬['$', '\x7b'] <:+: t) (front : Text) : Sealed front t := by
  rintro a b rfl
  exact absurd ⟨a, b, by simp⟩ h

lemma balanced_of_word {name : Text} (h : ∀ c ∈ name, isWord c = true) : Balanced name := by
  have hmarks : marks name = marks [] := marks_eq_nil fun c hc => not_isMark_of_isWord (h c hc)
  exact balanced_of_marks_eq hmarks rfl

/-- A hole is read up to the brace that closes it, after the text before it. -/
lemma splitFrom_text_hole {t name : Text} (ht : ¬['$', '\x7b'] <:+: t) (hescaping : ¬Escaping t)
    (hname : ∀ c ∈ name, isWord c = true) (pos : Nat) (rest : Text) :
    ∃ offset after, splitFrom (.text [] false) pos (t ++ '$' :: '\x7b' :: (name ++ '\x7d' :: rest)) =
      do return ofPiece t.reverse ++ .hole name offset :: (← splitFrom (.text [] false) after rest) := by
  have hhead : ('$' :: '\x7b' :: (name ++ '\x7d' :: rest)).head? ≠ some '\x7b' := by simp
  have htext := @splitFrom_text [] t _ [] pos (sealed_of_noHole ht []) hhead
  rw [List.nil_append, List.append_nil, decide_eq_false not_escaping_nil,
    decide_eq_false hescaping] at htext
  have hhole := @splitFrom_hole rest t.reverse name (pos + t.size) (balanced_of_word hname)
  have hsource : source (.hole name (pos + t.size + 2)) ++ rest =
      '$' :: '\x7b' :: (name ++ '\x7d' :: rest) := by simp [source]
  rw [hsource] at hhole
  refine ⟨pos + t.size + 2, pos + t.size + 3 + name.size, ?_⟩
  rw [htext, hhole]
  cases splitFrom (.text [] false) (pos + t.size + 3 + name.size) rest <;> rfl

end Segment

namespace Prompt

open Literal

variable {p : Prompt} {identifiers : Identifiers} {content t : Text} {us : List Text}
  {slots : List Nat} {g f : Nat → Text}

/-- The hole of a variable is rendered with its identifier. -/
lemma renderSegment_variable {name value : Text} (offset : Nat) (hkeys : [] ∉ identifiers.keys)
    (hname : ∀ c ∈ name, isWord c = true) (h : identifiers.get? name = some value) :
    renderSegment content .template identifiers (.hole name offset) =
      .ok ('$' :: '\x7b' :: (value ++ ['\x7d'])) := by
  have htick : name.find? ['\x60'] = none := by
    exact Text.find?_singleton_eq_none_iff.2 fun hmem => not_isMark_of_isWord (hname _ hmem) (by decide)
  simp only [renderSegment, Style.quote?, htick, substitute_of_get? hkeys hname h, renderHole]
  rfl

lemma mapM_ofPiece (content : Text) (identifiers : Identifiers) (t : Text) : ∃ pieces,
    (Segment.ofPiece t.reverse).mapM (renderSegment content .template identifiers) = .ok pieces ∧
      pieces.flatten = encode .template t := by
  cases t with
  | nil => exact ⟨[], rfl, rfl⟩
  | cons c t =>
    refine ⟨[encode .template (c :: t)], ?_, by simp⟩
    simp [Segment.ofPiece, renderSegment]

/-- Pieces are split into their texts and holes, and these are rendered one by one. -/
lemma render_pieces (hplain : ∀ u ∈ t :: us, IsPlain u)
    (hescaping : ∀ u ∈ (t :: us).dropLast, ¬Escaping u) (hslots : us.length ≤ slots.length)
    (hkeys : [] ∉ identifiers.keys)
    (hnames : ∀ slot ∈ slots.take us.length,
      (∀ c ∈ g slot, isWord c = true) ∧ identifiers.get? (g slot) = some (f slot)) (pos : Nat) :
    ∃ segments pieces,
      Segment.splitFrom (.text [] false) pos (interleave g (piecesOf t us) slots) = .ok segments ∧
      segments.mapM (renderSegment content .template identifiers) = .ok pieces ∧
      pieces.flatten =
        interleave f (piecesOf (encode .template t) (us.map (encode .template))) slots := by
  induction us generalizing t slots pos with
  | nil =>
    obtain ⟨pieces, hpieces, hflatten⟩ := mapM_ofPiece content identifiers t
    refine ⟨Segment.ofPiece t.reverse, pieces, ?_, hpieces, hflatten⟩
    have hend : ([] : Text).head? ≠ some '\x7b' := nofun
    have hsealed := Segment.sealed_of_noHole (hplain t List.mem_cons_self).noHole []
    have hsplit := @Segment.splitFrom_text [] t [] [] pos hsealed hend
    rw [List.append_nil, decide_eq_false not_escaping_nil] at hsplit
    rw [piecesOf, interleave, hsplit, Segment.splitFrom, List.append_nil]
  | cons u us ih =>
    cases slots with
    | nil => exact absurd hslots (Nat.not_succ_le_zero _)
    | cons slot slots =>
      rw [List.forall_mem_cons] at hplain
      rw [List.dropLast_cons_cons, List.forall_mem_cons] at hescaping
      rw [List.length_cons, List.take_succ_cons, List.forall_mem_cons] at hnames
      obtain ⟨offset, after, hhole⟩ := Segment.splitFrom_text_hole hplain.1.noHole hescaping.1
        hnames.1.1 pos (interleave g (piecesOf u us) slots)
      obtain ⟨segments, pieces, hsplit, hpieces, hflatten⟩ :=
        ih hplain.2 hescaping.2 (Nat.le_of_succ_le_succ hslots) hnames.2 after
      obtain ⟨first, hfirst, htext⟩ := mapM_ofPiece content identifiers t
      have hvariable : renderSegment content .template identifiers (.hole (g slot) offset) =
          .ok ('$' :: '\x7b' :: (f slot ++ ['\x7d'])) :=
        renderSegment_variable offset hkeys hnames.1.1 hnames.1.2
      refine ⟨Segment.ofPiece t.reverse ++ .hole (g slot) offset :: segments,
        first ++ ('$' :: '\x7b' :: (f slot ++ ['\x7d'])) :: pieces, ?_, ?_, ?_⟩
      · rw [interleave_piecesOf, hhole, hsplit]
        rfl
      · exact Attempt.mapM_append_of_ok hfirst
          (Attempt.mapM_cons_eq_ok.2 ⟨_, _, rfl, hvariable, hpieces⟩)
      · rw [List.flatten_append, htext, List.flatten_cons, hflatten, List.map_cons,
          interleave_piecesOf]
        simp

end Prompt
end Retouch
