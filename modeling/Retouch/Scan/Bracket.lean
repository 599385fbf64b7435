import Retouch.Scan.Lex
import Retouch.Skip
import Retouch.Text.Basic

/-! Scans for matching brackets and for the end of an expression. Forward scans pass over string
literals; the backward one does not, so what it finds is checked by a forward scan. -/
namespace Retouch.Scan

/-- Offset after the closer that brings the depth back to zero, from `pos` on. -/
def closerFrom (opener closer : UInt8) : (lex : Lex) → (depth pos : Nat) → List UInt8 → Option Nat
  | _, _, _, [] => none
  | .code, depth, pos, b :: rest =>
    if isQuote b then closerFrom opener closer (.literal b) depth (pos + 1) rest
    else if b == opener then closerFrom opener closer .code (depth + 1) (pos + 1) rest
    else if b == closer then
      match depth with
      | 0 => none
      | 1 => some (pos + 1)
      | depth + 2 => closerFrom opener closer .code (depth + 1) (pos + 1) rest
    else closerFrom opener closer .code depth (pos + 1) rest
  | lex, depth, pos, b :: rest => closerFrom opener closer (lex.step b) depth (pos + 1) rest

/-- Offset just past the closer that matches the opener at `start`. -/
def balancedEnd? (t : Text) (start : Nat) (opener closer : UInt8) : Option Nat :=
  let rest := t.bytes.drop start
  if rest.head? == some opener then closerFrom opener closer .code 0 start rest else none

def expressionEndFrom : (lex : Lex) → (depth pos : Nat) → List UInt8 → Option Nat
  | _, _, _, [] => none
  | .code, depth, pos, b :: rest =>
    if isOpener b then expressionEndFrom .code (depth + 1) (pos + 1) rest
    else if isCloser b then
      match depth with
      | 0 => some pos
      | depth + 1 => expressionEndFrom .code depth (pos + 1) rest
    else if isSeparator b && depth == 0 then some pos
    else expressionEndFrom (Lex.step .code b) depth (pos + 1) rest
  | lex, depth, pos, b :: rest => expressionEndFrom (lex.step b) depth (pos + 1) rest

/-- Offset of the first separator or unmatched closer after `start` that is within no bracket. -/
def expressionEnd? (t : Text) (start : Nat) : Option Nat :=
  expressionEndFrom .code 0 start (t.bytes.drop start)

def depthAfter : (lex : Lex) → (depth : Nat) → List UInt8 → Option Nat
  | .code, depth, [] => some depth
  | _, _, [] => none
  | .code, depth, b :: rest =>
    if isOpener b then depthAfter .code (depth + 1) rest
    else if isCloser b then
      match depth with
      | 0 => none
      | depth + 1 => depthAfter .code depth rest
    else depthAfter (Lex.step .code b) depth rest
  | lex, depth, b :: rest => depthAfter (lex.step b) depth rest

/-- Brackets open between two offsets. There is no answer inside a string literal, nor where a
bracket closes that was opened before. -/
def depthBetween? (t : Text) (start stop : Nat) : Option Nat :=
  depthAfter .code 0 ((t.bytes.drop start).take (stop - start))

def openerBefore (opener closer : UInt8) : (depth pos : Nat) → List UInt8 → Option Nat
  | _, _, [] => none
  | depth, pos, b :: rest =>
    if b == closer then openerBefore opener closer (depth + 1) (pos - 1) rest
    else if b == opener then
      match depth with
      | 0 => some (pos - 1)
      | depth + 1 => openerBefore opener closer depth (pos - 1) rest
    else openerBefore opener closer depth (pos - 1) rest

/-- Offset of the innermost opener without its closer before `place`, at most `lookback` bytes back. -/
def enclosingOpener? (t : Text) (place : Nat) (opener closer : UInt8) (lookback : Nat) : Option Nat :=
  let before := (t.bytes.take place).reverse
  openerBefore opener closer 0 before.length (before.take lookback)

/-- The byte right before an offset of the text, unless the text starts there. -/
def byteBefore? (t : Text) (place : Nat) : Attempt (Option UInt8) :=
  if place = 0 then .ok none else do return some (← Attempt.demand t.bytes[place - 1]?)

/-- Offset of the last occurrence of a byte before an offset of the text, at most `lookback` bytes
back. -/
def lastByte? (t : Text) (place : Nat) (b : UInt8) (lookback : Nat) : Attempt (Option Nat) :=
  if place ≤ t.size then
    let before := (t.bytes.take place).reverse
    .ok (((before.take lookback).findIdx? (· == b)).map fun i => before.length - 1 - i)
  else .error (.fault .outsideText)

end Retouch.Scan
