import Retouch.Proofs.Scan.Level
import Retouch.Proofs.Text.Found

/-! What the scans for brackets find. Brackets and separators are single bytes, so every offset that a
scan returns is a boundary, and so are the offsets next to it. -/
namespace Retouch.Scan

variable {t : Text} {bs : List UInt8} {lex : Lex} {opener closer : UInt8} {depth pos start stop : Nat}

/-- A bracket of the script language is no quote and has a byte of its own. -/
lemma isOpener_ascii {b : UInt8} (h : isOpener b) : isQuote b = false ∧ b.toNat < 0x80 := by
  simp only [isOpener, Bool.or_eq_true, beq_iff_eq] at h
  rcases h with (rfl | rfl) | rfl <;> decide

lemma isCloser_ascii {b : UInt8} (h : isCloser b) : isQuote b = false ∧ b.toNat < 0x80 := by
  simp only [isCloser, Bool.or_eq_true, beq_iff_eq] at h
  rcases h with (rfl | rfl) | rfl <;> decide

lemma isSeparator_ascii {b : UInt8} (h : isSeparator b) : b.toNat < 0x80 := by
  simp only [isSeparator, Bool.or_eq_true, beq_iff_eq] at h
  rcases h with rfl | rfl <;> decide

/-! ## Balanced brackets -/

/-- Two offsets right around a pair of brackets. -/
structure Encloses (t : Text) (start stop : Nat) : Prop where
  le : start + 1 ≤ stop - 1
  opener : t.isBoundary start
  inside : t.isBoundary (start + 1)
  closer : t.isBoundary (stop - 1)
  outside : t.isBoundary stop

lemma encloses_of_bytes_eq {front body rest : List UInt8} (hopener : opener.toNat < 0x80)
    (hcloser : closer.toNat < 0x80) (h : t.bytes = front ++ opener :: (body ++ closer :: rest)) :
    Encloses t front.length (front.length + body.length + 2) := by
  obtain ⟨hstart, hafter⟩ := Text.isBoundary_of_bytes_eq h hopener
  have hsplit : t.bytes = (front ++ opener :: body) ++ closer :: rest := by
    rw [h, List.append_assoc, List.cons_append]
  obtain ⟨hbefore, hstop⟩ := Text.isBoundary_of_bytes_eq hsplit hcloser
  rw [List.length_append, List.length_cons] at hbefore hstop
  exact ⟨by omega, hstart, hafter, hbefore, hstop⟩

theorem encloses_of_balancedEnd? (hopener : isOpener opener) (hcloser : isCloser closer)
    (h : balancedEnd? t start opener closer = some stop) : Encloses t start stop := by
  obtain ⟨hopens, hopenerByte⟩ := isOpener_ascii hopener
  obtain ⟨hcloses, hcloserByte⟩ := isCloser_ascii hcloser
  have hne : opener ≠ closer := by
    rintro rfl
    simp only [isOpener, isCloser, Bool.or_eq_true, beq_iff_eq] at hopener hcloser
    rcases hopener with (rfl | rfl) | rfl <;> revert hcloser <;> decide
  obtain ⟨front, body, rest, hbytes, rfl, rfl, -⟩ := (balancedEnd?_eq_some_iff hopens hcloses hne).1 h
  exact encloses_of_bytes_eq hopenerByte hcloserByte hbytes

/-- A byte stands after bytes without it. -/
lemma length_le_of_append_eq {as cs ds : List UInt8} {b : UInt8} (hb : b ∉ as)
    (h : as ++ bs = cs ++ b :: ds) : as.length ≤ cs.length := by
  rcases List.append_eq_append_iff.1 h with ⟨k, rfl, -⟩ | ⟨k, rfl, hk⟩
  · simp
  · cases k with
    | nil => simp
    | cons d k =>
      obtain ⟨rfl, -⟩ := List.cons.inj hk
      simp at hb

/-- What follows an opener is in its pair of brackets exactly if the brackets before it close nothing that was
open before them. -/
theorem past_balancedEnd?_iff {front between place rest : List UInt8} (hopener : isQuote opener = false)
    (hcloser : isQuote closer = false) (hne : opener ≠ closer) (hplace : closer ∉ place)
    (ht : t.bytes = front ++ opener :: (between ++ (place ++ rest)))
    (h : balancedEnd? t front.length opener closer = some stop) :
    front.length + 1 + between.length + place.length < stop ↔
      (level? (· == opener) (· == closer) (.code, 0) between).isSome := by
  obtain ⟨front', body, rest', ht', hfront, rfl, hbody⟩ :=
    (balancedEnd?_eq_some_iff hopener hcloser hne).1 h
  rw [ht] at ht'
  obtain ⟨rfl, htail⟩ := List.append_inj ht' hfront.symm
  have hsplit : between ++ (place ++ rest) = body ++ closer :: rest' := (List.cons.inj htail).2
  rcases List.append_eq_append_iff.1 hsplit with ⟨inner, rfl, hrest⟩ | ⟨outer, rfl, hrest⟩
  · obtain ⟨state, hlevel, -⟩ := exists_level?_of_append hbody
    rw [hlevel]
    refine iff_of_true ?_ rfl
    have := length_le_of_append_eq hplace hrest
    rw [List.length_append]
    omega
  · cases outer with
    | nil =>
      rw [List.append_nil, hbody]
      refine iff_of_true ?_ rfl
      have hfirst : place ++ rest = [] ++ closer :: rest' := hrest.symm
      have : place.length ≤ 0 := length_le_of_append_eq hplace hfirst
      omega
    | cons d outer =>
      -- The closer is met before the place, and nothing is open there.
      obtain ⟨rfl, -⟩ := List.cons.inj hrest
      have hstep : levelStep (· == opener) (· == closer) (.code, 0) closer = none := by
        rw [levelStep_code, if_neg (by simpa using hne.symm), if_pos (beq_self_eq_true closer)]
      rw [level?_append_of_eq hbody, level?_cons, hstep]
      refine iff_of_false ?_ (by simp)
      rw [List.length_append, List.length_cons]
      omega

/-! ## Ends of expressions -/

lemma exists_of_expressionEndFrom (h : expressionEndFrom lex depth pos bs = some stop) :
    ∃ front b rest, bs = front ++ b :: rest ∧ stop = pos + front.length ∧ b.toNat < 0x80 := by
  have hlater {b : UInt8} {bs : List UInt8} {pos : Nat}
      (h : ∃ front b rest, bs = front ++ b :: rest ∧ stop = pos + 1 + front.length ∧ b.toNat < 0x80) :
      ∃ front b' rest, b :: bs = front ++ b' :: rest ∧ stop = pos + front.length ∧ b'.toNat < 0x80 := by
    obtain ⟨front, b', rest, rfl, rfl, hb⟩ := h
    exact ⟨b :: front, b', rest, rfl, by rw [List.length_cons]; omega, hb⟩
  fun_induction expressionEndFrom lex depth pos bs with
  | case1 => cases h
  | case2 _ _ _ _ _ ih => exact hlater (ih h)
  | case3 pos b rest _ hcloser =>
    cases h
    exact ⟨[], b, rest, rfl, rfl, (isCloser_ascii hcloser).2⟩
  | case4 _ _ _ _ _ _ ih => exact hlater (ih h)
  | case5 depth pos b rest _ _ hseparator =>
    cases h
    exact ⟨[], b, rest, rfl, rfl, isSeparator_ascii (Bool.and_eq_true _ _ ▸ hseparator).1⟩
  | case6 _ _ _ _ _ _ _ ih => exact hlater (ih h)
  | case7 _ _ _ _ _ _ ih => exact hlater (ih h)

theorem isBoundary_of_expressionEnd? (h : expressionEnd? t start = some stop) : t.isBoundary stop := by
  obtain ⟨front, b, rest, hdrop, rfl, hb⟩ := exists_of_expressionEndFrom h
  obtain ⟨before, hbytes, rfl⟩ : ∃ before, t.bytes = before ++ (front ++ b :: rest) ∧
      before.length = start := by
    cases front with
    | nil => exact exists_front_of_drop hdrop
    | cons d front => exact exists_front_of_drop hdrop
  rw [← List.append_assoc] at hbytes
  have hboundary := (Text.isBoundary_of_bytes_eq hbytes hb).1
  rwa [List.length_append] at hboundary

end Retouch.Scan
