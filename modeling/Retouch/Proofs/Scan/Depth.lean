import Retouch.Proofs.Literal.Segment
import Retouch.Proofs.Scan.Bracket

/-! Depths of brackets. Here each scan takes a bracket off its count by a step that faults where none is
open. The scans that test the count first never fault, and neither do the two that do not: they start
at a bracket that opens. So all of them come to the same as the scans that run. -/
namespace Retouch

/-- One open bracket less. There has to be one. -/
def closeBracket : (depth : Nat) → Attempt Nat
  | 0 => .error (.fault .outsideText)
  | depth + 1 => .ok depth

@[simp] lemma closeBracket_succ (depth : Nat) : closeBracket (depth + 1) = .ok depth := rfl

/-- Where the count is tested first, a bracket can be taken off it. -/
lemma closeBracket_guarded {α : Type} (depth : Nat) (atZero : Attempt α) (f : Nat → Attempt α) :
    (if depth = 0 then atZero else closeBracket depth >>= f) =
      match depth with
      | 0 => atZero
      | depth + 1 => f depth := by
  cases depth <;> rfl

namespace Scan

/-- The scan for a closer, with each closer taken off the count. -/
def closerCounted (opener closer : UInt8) : (lex : Lex) → (depth pos : Nat) → List UInt8 →
    Attempt (Option Nat)
  | _, _, _, [] => .ok none
  | .code, depth, pos, b :: rest =>
    if isQuote b then closerCounted opener closer (.literal b) depth (pos + 1) rest
    else if b == opener then closerCounted opener closer .code (depth + 1) (pos + 1) rest
    else if b == closer then do
      let left ← closeBracket depth
      if left = 0 then return some (pos + 1) else closerCounted opener closer .code left (pos + 1) rest
    else closerCounted opener closer .code depth (pos + 1) rest
  | lex, depth, pos, b :: rest => closerCounted opener closer (lex.step b) depth (pos + 1) rest

def balancedCounted (t : Text) (start : Nat) (opener closer : UInt8) : Attempt (Option Nat) :=
  let rest := t.bytes.drop start
  if rest.head? == some opener then closerCounted opener closer .code 0 start rest else .ok none

/-- The scan for the end of an expression, with each closer taken off the count. -/
def expressionEndCounted : (lex : Lex) → (depth pos : Nat) → List UInt8 → Attempt (Option Nat)
  | _, _, _, [] => .ok none
  | .code, depth, pos, b :: rest =>
    if isOpener b then expressionEndCounted .code (depth + 1) (pos + 1) rest
    else if isCloser b then
      if depth = 0 then .ok (some pos)
      else do expressionEndCounted .code (← closeBracket depth) (pos + 1) rest
    else if isSeparator b && depth == 0 then .ok (some pos)
    else expressionEndCounted (Lex.step .code b) depth (pos + 1) rest
  | lex, depth, pos, b :: rest => expressionEndCounted (lex.step b) depth (pos + 1) rest

/-- The brackets open after some bytes, with each closer taken off the count. -/
def depthCounted : (lex : Lex) → (depth : Nat) → List UInt8 → Attempt (Option Nat)
  | .code, depth, [] => .ok (some depth)
  | _, _, [] => .ok none
  | .code, depth, b :: rest =>
    if isOpener b then depthCounted .code (depth + 1) rest
    else if isCloser b then
      if depth = 0 then .ok none else do depthCounted .code (← closeBracket depth) rest
    else depthCounted (Lex.step .code b) depth rest
  | lex, depth, b :: rest => depthCounted (lex.step b) depth rest

/-- The backward scan for an opener, with each opener taken off the count. -/
def openerCounted (opener closer : UInt8) : (depth pos : Nat) → List UInt8 → Attempt (Option Nat)
  | _, _, [] => .ok none
  | depth, pos, b :: rest =>
    if b == closer then openerCounted opener closer (depth + 1) (pos - 1) rest
    else if b == opener then
      if depth = 0 then .ok (some (pos - 1))
      else do openerCounted opener closer (← closeBracket depth) (pos - 1) rest
    else openerCounted opener closer depth (pos - 1) rest

variable {opener closer : UInt8}

/-- Where a bracket is open, the scan for its closer never counts below it. -/
lemma closerCounted_eq (lex : Lex) (depth pos : Nat) (bs : List UInt8) :
    closerCounted opener closer lex (depth + 1) pos bs =
      .ok (closerFrom opener closer lex (depth + 1) pos bs) := by
  induction bs generalizing lex depth pos with
  | nil => cases lex <;> rfl
  | cons b bs ih =>
    cases lex with
    | code =>
      simp only [closerCounted, closerFrom, ih, closeBracket_succ]
      cases depth with
      | zero => split_ifs <;> rfl
      | succ depth =>
        simp only [bind, Except.bind, Nat.succ_ne_zero, ↓reduceIte, ih]
        split_ifs <;> rfl
    | literal quote => exact ih _ _ _
    | escape quote => exact ih _ _ _

theorem balancedCounted_eq (t : Text) (start : Nat) (hopener : isQuote opener = false) :
    balancedCounted t start opener closer = .ok (balancedEnd? t start opener closer) := by
  rw [balancedCounted, balancedEnd?]
  cases hrest : t.bytes.drop start with
  | nil => rfl
  | cons b rest =>
    by_cases hb : b = opener
    · subst hb
      simp only [List.head?_cons, BEq.rfl, ↓reduceIte, closerCounted, closerFrom, hopener,
        Bool.false_eq_true, Nat.zero_add, closerCounted_eq]
    · simp [hb]

theorem expressionEndCounted_eq (lex : Lex) (depth pos : Nat) (bs : List UInt8) :
    expressionEndCounted lex depth pos bs = .ok (expressionEndFrom lex depth pos bs) := by
  induction bs generalizing lex depth pos with
  | nil => cases lex <;> rfl
  | cons b bs ih =>
    cases lex with
    | code =>
      simp only [expressionEndCounted, expressionEndFrom, closeBracket_guarded, ih]
      cases depth <;> split_ifs <;> rfl
    | literal quote => exact ih _ _ _
    | escape quote => exact ih _ _ _

theorem depthCounted_eq (lex : Lex) (depth : Nat) (bs : List UInt8) :
    depthCounted lex depth bs = .ok (depthAfter lex depth bs) := by
  induction bs generalizing lex depth with
  | nil => cases lex <;> rfl
  | cons b bs ih =>
    cases lex with
    | code =>
      simp only [depthCounted, depthAfter, closeBracket_guarded, ih]
      cases depth <;> split_ifs <;> rfl
    | literal quote => exact ih _ _
    | escape quote => exact ih _ _

theorem openerCounted_eq (depth pos : Nat) (bs : List UInt8) :
    openerCounted opener closer depth pos bs = .ok (openerBefore opener closer depth pos bs) := by
  induction bs generalizing depth pos with
  | nil => rfl
  | cons b bs ih =>
    simp only [openerCounted, openerBefore, closeBracket_guarded, ih]
    cases depth <;> split_ifs <;> rfl

end Scan

namespace Segment

/-- The reader of content, with each brace that closes taken off the count. -/
def splitCounted (reading : Reading) (pos : Nat) : Text → Attempt (Except Nat (List Segment))
  | [] =>
    match reading with
    | .text piece _ => .ok (.ok (ofPiece piece))
    | .hole _ _ start => .ok (.error start)
  | c :: t =>
    let after := pos + c.utf8Size
    match reading with
    | .text piece escaped =>
      if c = '$' && !escaped && t.head? = some '\x7b' then do
        return (← splitCounted (.hole [] 0 pos) after t).map (ofPiece piece ++ ·)
      else splitCounted (.text (c :: piece) (c = '\\' && !escaped)) after t
    | .hole expr depth start =>
      if c = '\x7b' then
        splitCounted (.hole (if depth = 0 then expr else c :: expr) (depth + 1) start) after t
      else if c = '\x7d' then do
        let left ← closeBracket depth
        if left = 0 then
          return (← splitCounted (.text [] false) after t).map (.hole expr.reverse (start + 2) :: ·)
        else splitCounted (.hole (c :: expr) left start) after t
      else splitCounted (.hole (c :: expr) depth start) after t

/-- A reader in a hole has read the brace that opens it, or reads it next. -/
def Reading.IsOpen (rest : Text) : Reading → Prop
  | .text _ _ => True
  | .hole _ depth _ => depth = 0 → rest.head? = some '\x7b'

theorem splitCounted_eq (reading : Reading) (pos : Nat) {t : Text} (h : reading.IsOpen t) :
    splitCounted reading pos t = .ok (splitFrom reading pos t) := by
  induction t generalizing reading pos with
  | nil => cases reading <;> rfl
  | cons c t ih =>
    cases reading with
    | text piece escaped =>
      simp only [splitCounted, splitFrom]
      split
      · next hhole =>
        simp only [Bool.and_eq_true, decide_eq_true_eq] at hhole
        rw [ih (.hole [] 0 pos) _ fun _ => hhole.2]
        cases splitFrom (.hole [] 0 pos) (pos + c.utf8Size) t <;> rfl
      · exact ih _ _ trivial
    | hole expr depth start =>
      have hdeep (expr : Text) (depth : Nat) : Reading.IsOpen t (.hole expr (depth + 1) start) :=
        fun hzero => absurd hzero (Nat.succ_ne_zero depth)
      simp only [splitCounted, splitFrom]
      cases depth with
      | zero =>
        obtain rfl : c = '\x7b' := by simpa using h rfl
        exact ih _ _ (hdeep _ 0)
      | succ depth =>
        split
        · exact ih _ _ (hdeep _ (depth + 1))
        · split
          · cases depth with
            | zero =>
              simp only [closeBracket_succ, bind, Except.bind, ↓reduceIte, ih (.text [] false) _ trivial]
              cases splitFrom (.text [] false) (pos + c.utf8Size) t <;> rfl
            | succ depth => exact ih _ _ (hdeep _ depth)
          · exact ih _ _ (hdeep _ depth)

end Segment
end Retouch
