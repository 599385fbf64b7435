import Retouch.Proofs.Scan.Level

/-! Members of an object literal: the parts of its body between the commas that stand within no bracket and
no string. Bytes that leave the state of the scan as it was change one member at most. -/
namespace Retouch.Scan

/-- The members of a body, given what has been read of the first one and the state that it left. -/
def membersFrom (member : List UInt8) : Option (Lex × Nat) → List UInt8 → List (List UInt8)
  | _, [] => [member]
  | s, b :: bs =>
    if s = some (.code, 0) ∧ b = 0x2C then member :: membersFrom [] s bs
    else membersFrom (member ++ [b]) (s.bind (levelStep isOpener isCloser · b)) bs

def members (body : List UInt8) : List (List UInt8) := membersFrom [] (some (.code, 0)) body

variable {s s' : Lex × Nat} {quote : UInt8} {member as bs inner : List UInt8}

lemma brackets_isOpener : Brackets isOpener isCloser := by
  intro b hquote
  simp only [isQuote, Bool.or_eq_true, beq_iff_eq] at hquote
  rcases hquote with (rfl | rfl) | rfl <;> decide

lemma membersFrom_comma (member bs : List UInt8) : membersFrom member (some (.code, 0)) (0x2C :: bs) =
    member :: members bs := by
  rw [membersFrom, if_pos ⟨rfl, rfl⟩, members]

/-- What has been read of the first member stands before the rest of it. -/
lemma membersFrom_eq_cons (s : Option (Lex × Nat)) (bs : List UInt8) :
    ∃ first later, ∀ member, membersFrom member s bs = (member ++ first) :: later := by
  induction bs generalizing s with
  | nil => exact ⟨[], [], fun member => by rw [membersFrom, List.append_nil]⟩
  | cons b bs ih =>
    by_cases hcomma : s = some (.code, 0) ∧ b = 0x2C
    · exact ⟨[], membersFrom [] s bs, fun member => by
        rw [membersFrom, if_pos hcomma, List.append_nil]⟩
    · obtain ⟨first, later, hmembers⟩ := ih (s.bind (levelStep isOpener isCloser · b))
      refine ⟨b :: first, later, fun member => ?_⟩
      rw [membersFrom, if_neg hcomma, hmembers, List.append_assoc, List.singleton_append]

/-- The members of a body, with commas between them, are the body. -/
lemma intercalate_membersFrom (s : Option (Lex × Nat)) (member bs : List UInt8) :
    [0x2C].intercalate (membersFrom member s bs) = member ++ bs := by
  induction bs generalizing member s with
  | nil => simp [membersFrom]
  | cons b bs ih =>
    by_cases hcomma : s = some (.code, 0) ∧ b = 0x2C
    · obtain ⟨first, later, hmembers⟩ := membersFrom_eq_cons s bs
      have hrest := ih s []
      rw [hmembers] at hrest
      rw [membersFrom, if_pos hcomma, hcomma.2, hmembers, List.intercalate_cons_cons, hrest]
      simp
    · rw [membersFrom, if_neg hcomma, ih]
      simp

/-- The members of a body go on from the last one of its first part. -/
lemma exists_membersFrom_append (h : level? isOpener isCloser s as = some s') (member : List UInt8) :
    ∃ done last, ∀ bs, membersFrom member (some s) (as ++ bs) = done ++ membersFrom last (some s') bs := by
  induction as generalizing s member with
  | nil =>
    cases h
    exact ⟨[], member, fun bs => rfl⟩
  | cons b as ih =>
    rw [level?_cons] at h
    obtain ⟨between, hb, h⟩ := Option.bind_eq_some_iff.1 h
    by_cases hcomma : some s = some (.code, 0) ∧ b = 0x2C
    · obtain ⟨hs, rfl⟩ := hcomma
      obtain rfl := Option.some.inj hs
      obtain rfl : (.code, 0) = between := Option.some.inj hb
      obtain ⟨done, last, hmembers⟩ := ih h []
      refine ⟨member :: done, last, fun bs => ?_⟩
      rw [List.cons_append, membersFrom_comma, members, hmembers, List.cons_append]
    · obtain ⟨done, last, hmembers⟩ := ih h (member ++ [b])
      refine ⟨done, last, fun bs => ?_⟩
      rw [List.cons_append, membersFrom, if_neg hcomma, Option.bind_some, hb, hmembers]

lemma membersFrom_plain (h : Plain isOpener isCloser as) (hcomma : 0x2C ∉ as) (depth : Nat)
    (member bs : List UInt8) : membersFrom member (some (.code, depth)) (as ++ bs) =
      membersFrom (member ++ as) (some (.code, depth)) bs := by
  induction as generalizing member with
  | nil => simp
  | cons b as ih =>
    obtain ⟨⟨hopens, hcloses, hquote⟩, has⟩ := List.forall_mem_cons.1 h
    obtain ⟨hb, hcomma⟩ := List.ne_and_not_mem_of_not_mem_cons hcomma
    have hstep : levelStep isOpener isCloser (.code, depth) b = some (.code, depth) := by
      rw [levelStep_code]
      simp [hopens, hcloses, Lex.step, hquote]
    rw [List.cons_append, membersFrom, if_neg fun h => hb h.2.symm, Option.bind_some, hstep,
      ih has hcomma, List.append_assoc, List.singleton_append]

lemma membersFrom_inside (h : Inside quote inner) (depth : Nat) (member bs : List UInt8) :
    membersFrom member (some (.literal quote, depth)) (inner ++ bs) =
      membersFrom (member ++ inner) (some (.literal quote, depth)) bs := by
  induction h generalizing member with
  | nil => simp
  | byte hslash hquote _ ih =>
    simp [membersFrom, levelStep, Lex.step, hslash, hquote, ih]
  | escaped _ ih => simp [membersFrom, levelStep, Lex.step, ih]

/-- A string literal is part of one member. -/
lemma membersFrom_literal (h : IsLiteral as) (depth : Nat) (member bs : List UInt8) :
    membersFrom member (some (.code, depth)) (as ++ bs) =
      membersFrom (member ++ as) (some (.code, depth)) bs := by
  obtain ⟨quote, inner, hquote, hinner, rfl⟩ := h
  obtain ⟨hopens, hcloses⟩ := brackets_isOpener quote hquote
  have hcomma : quote ≠ 0x2C := by
    rintro rfl
    exact absurd hquote (by decide)
  have hslash := ne_backslash_of_isQuote hquote
  have hopen : levelStep isOpener isCloser (.code, depth) quote = some (.literal quote, depth) := by
    rw [levelStep_code]
    simp [hopens, hcloses, Lex.step, hquote]
  have hclose : levelStep isOpener isCloser (.literal quote, depth) quote = some (.code, depth) := by
    simp [levelStep, Lex.step, hslash]
  rw [List.cons_append, membersFrom, if_neg fun h => hcomma h.2, Option.bind_some, hopen,
    List.append_assoc, membersFrom_inside hinner, List.singleton_append, membersFrom,
    if_neg fun h => hcomma h.2, Option.bind_some, hclose]
  simp

end Retouch.Scan
