import Retouch.Decimal
import Retouch.Text.Utf8

/-! Reading the tokens of JSON from bytes. The first byte that does not fit decides how reading
fails: the text is malformed, or it ends too early, or a value is not what was asked for. -/
namespace Retouch.Json

inductive ReadError where
  | malformed
  | incomplete
  | mismatch
  deriving DecidableEq, Repr

def ReadError.message : ReadError → String
  | malformed => "malformed text"
  | incomplete => "the text ends too early"
  | mismatch => "a value is not what was expected"

abbrev Reader := StateT (List UInt8) (Except ReadError)

namespace Read

def fail {α : Type} (e : ReadError) : Reader α := throw e

def isBlankByte (b : UInt8) : Bool := b == 0x20 || b == 0x0A || b == 0x0D || b == 0x09

def isDigitByte (b : UInt8) : Bool := 0x30 ≤ b && b ≤ 0x39

/-- The next byte, which stays. -/
def peek : Reader (Option UInt8) := do return (← get).head?

def skip : Reader Unit := modify List.tail

/-- The next byte that is not blank, which stays. -/
def peekSolid : Reader (Option UInt8) := do
  modify (·.dropWhile isBlankByte)
  peek

/-- The next byte that is not blank, where there has to be one. -/
def demandSolid : Reader UInt8 := do
  match ← peekSolid with
  | some b => return b
  | none => fail .incomplete

/-- A fixed word. -/
def word : List UInt8 → Reader Unit
  | [] => return
  | b :: bs => do
    match ← peek with
    | none => fail .incomplete
    | some c =>
      skip
      if b = c then word bs else fail .malformed

def nullWord : List UInt8 := Text.bytes "null".toList

def trueWord : List UInt8 := Text.bytes "true".toList

def falseWord : List UInt8 := Text.bytes "false".toList

def digits : Reader (List UInt8) := do
  let bs ← get
  set (bs.dropWhile isDigitByte)
  return bs.takeWhile isDigitByte

def digitsValue (ds : List UInt8) : Nat := ds.foldl (fun n d => 10 * n + (d.toNat - 0x30)) 0

/-- An exponent after its letter. -/
def exponent : Reader Int := do
  let negative ← match ← peek with
    | some 0x2B => skip; pure false
    | some 0x2D => skip; pure true
    | _ => pure false
  match ← peek with
  | none => fail .incomplete
  | some b =>
    if isDigitByte b then
      let n := digitsValue (← digits)
      return if negative then -n else n
    else fail .malformed

/-- A number without its sign, and whether neither a point nor an exponent is written. -/
def decimal : Reader (Decimal × Bool) := do
  match ← peek with
  | none => fail .incomplete
  | some b => if !isDigitByte b then fail .malformed
  let whole ← digits
  if whole.head? = some 0x30 && whole.length ≠ 1 then fail .malformed
  let mut fraction := []
  let mut isWhole := true
  if (← peek) = some 0x2E then
    skip
    isWhole := false
    fraction ← digits
    if fraction.isEmpty then fail (if (← get).isEmpty then .incomplete else .malformed)
  let mut power : Int := 0
  let next ← peek
  if next = some 0x65 || next = some 0x45 then
    skip
    isWhole := false
    power ← exponent
  return (⟨digitsValue (whole ++ fraction), power - fraction.length⟩, isWhole)

/-- A number that starts here: its value, if it is a natural number of at most 64 bits. -/
def number : Reader (Option Nat) := do
  let negative := (← peek) = some 0x2D
  if negative then skip
  let (d, isWhole) ← decimal
  if d.isHuge then fail .malformed
  return if isWhole && !negative && d.significand < UInt64.size then some d.significand else none

def hexValue? (b : UInt8) : Option Nat :=
  if isDigitByte b then some (b.toNat - 0x30)
  else if 0x61 ≤ b && b ≤ 0x66 then some (b.toNat - 0x57)
  else if 0x41 ≤ b && b ≤ 0x46 then some (b.toNat - 0x37)
  else none

def unit? (a b c d : UInt8) : Option Nat := do
  return ((16 * (← hexValue? a) + (← hexValue? b)) * 16 + (← hexValue? c)) * 16 + (← hexValue? d)

/-- The byte that a short escape stands for. -/
def shortEscape? (b : UInt8) : Option UInt8 :=
  if b == 0x22 || b == 0x5C || b == 0x2F then some b
  else if b == 0x62 then some 0x08
  else if b == 0x66 then some 0x0C
  else if b == 0x6E then some 0x0A
  else if b == 0x72 then some 0x0D
  else if b == 0x74 then some 0x09
  else none

def encodeReversed (n : Nat) (found : List UInt8) : List UInt8 :=
  (String.utf8EncodeChar (Char.ofNat n)).reverse ++ found

/-- The bytes of a string after its opening quote, and what follows the closing one. Bytes found so
far are kept with the latest first. -/
def stringBody (found : List UInt8) : List UInt8 → Except ReadError (List UInt8 × List UInt8)
  | [] => .error .incomplete
  | 0x22 :: rest => .ok (found.reverse, rest)
  | 0x5C :: [] => .error .incomplete
  | 0x5C :: 0x75 :: a :: b :: c :: d :: rest =>
    match unit? a b c d with
    | none => .error .malformed
    | some n =>
      if 0xDC00 ≤ n && n ≤ 0xDFFF then .error .malformed
      else if n < 0xD800 || 0xDFFF < n then stringBody (encodeReversed n found) rest
      else
        match rest with
        | [] => .error .incomplete
        | 0x5C :: [] => .error .incomplete
        | 0x5C :: 0x75 :: e :: f :: g :: h :: rest =>
          match unit? e f g h with
          | none => .error .malformed
          | some m =>
            if m < 0xDC00 || 0xDFFF < m then .error .malformed
            else stringBody (encodeReversed (0x10000 + (n - 0xD800) * 0x400 + (m - 0xDC00)) found) rest
        | 0x5C :: 0x75 :: _ => .error .incomplete
        | _ => .error .malformed
  | 0x5C :: b :: rest =>
    match shortEscape? b with
    | some c => stringBody (c :: found) rest
    | none => .error (if b == 0x75 then .incomplete else .malformed)
  | b :: rest => if b < 0x20 then .error .malformed else stringBody (b :: found) rest

/-- A string whose opening quote comes next. -/
def quotedString : Reader String := do
  skip
  let (found, rest) ← (stringBody [] (← get) : Except _ _)
  set rest
  match Utf8.decode? found with
  | some t => return String.ofList t
  | none => fail .malformed

/-- Passes over a string after its opening quote. Its escapes need not stand for characters. -/
def skipStringBody : List UInt8 → Except ReadError (List UInt8)
  | [] => .error .incomplete
  | 0x22 :: rest => .ok rest
  | 0x5C :: [] => .error .incomplete
  | 0x5C :: 0x75 :: a :: b :: c :: d :: rest =>
    if (unit? a b c d).isSome then skipStringBody rest else .error .malformed
  | 0x5C :: b :: rest =>
    if (shortEscape? b).isSome then skipStringBody rest
    else .error (if b == 0x75 then .incomplete else .malformed)
  | b :: rest => if b < 0x20 then .error .malformed else skipStringBody rest

def skipString : Reader Unit := do
  skip
  set (← (skipStringBody (← get) : Except _ _))

/-- Passes over a number of any size, which may end anywhere but inside. -/
def skipNumber : Reader Unit := do
  if (← peek) = some 0x2D then skip
  let whole ← digits
  if whole.isEmpty || (whole.head? = some 0x30 && whole.length ≠ 1) then fail .malformed
  if (← peek) = some 0x2E then
    skip
    if (← digits).isEmpty then fail .malformed
  let next ← peek
  if next = some 0x65 || next = some 0x45 then
    skip
    let sign ← peek
    if sign = some 0x2B || sign = some 0x2D then skip
    if (← digits).isEmpty then fail .malformed

/-- The colon between the key and the value of a member. -/
def colon : Reader Unit := do
  match ← peekSolid with
  | some 0x3A => skip
  | some _ => fail .malformed
  | none => fail .incomplete

/-- A value that is not the one asked for: words, numbers and strings are read to their end, and
the first byte of an array or object is enough. -/
def refuse {α : Type} : Reader α := do
  match ← peek with
  | some 0x6E => word nullWord
  | some 0x74 => word trueWord
  | some 0x66 => word falseWord
  | some 0x22 => discard quotedString
  | some 0x5B | some 0x7B => pure ()
  | some b => if b == 0x2D || isDigitByte b then discard number else fail .malformed
  | none => fail .malformed
  fail .mismatch

/-- Whether one more item of an array comes; the comma before it is taken. -/
def nextItem (isFirst : Bool) : Reader Bool := do
  match ← peekSolid with
  | none => fail .incomplete
  | some 0x5D => return false
  | some b =>
    if isFirst then return true
    if b ≠ 0x2C then fail .malformed
    skip
    if (← demandSolid) = 0x5D then fail .malformed
    return true

/-- The bracket that closes an array. -/
def endArray : Reader Unit := do
  match ← peekSolid with
  | some 0x5D => skip
  | some _ => fail .malformed
  | none => fail .incomplete

/-- Whether one more member of an object comes; the comma before it is taken, and its key is next. -/
def nextMember (isFirst : Bool) : Reader Bool := do
  match ← peekSolid with
  | none => fail .incomplete
  | some 0x7D => return false
  | some b =>
    if isFirst then
      if b ≠ 0x22 then fail .malformed
      return true
    if b ≠ 0x2C then fail .malformed
    skip
    if (← demandSolid) ≠ 0x22 then fail .malformed
    return true

/-- The brace that closes an object. -/
def endObject : Reader Unit := do
  match ← peekSolid with
  | some 0x7D => skip
  | some _ => fail .malformed
  | none => fail .incomplete

end Read
end Retouch.Json
