import Retouch.Text.Basic

/-! Reading UTF-8. Bytes that form no character are taken in runs, each as long as a character could
still have come of it, and each run counts as one malformed unit. -/
namespace Retouch.Utf8

/-- A character that is read in part: the bits so far, the bytes to come, and the range of the next. -/
structure Pending where
  bits : Nat
  needed : Nat
  low : UInt8
  high : UInt8
  deriving DecidableEq, Repr

/-- What a byte that starts a longer character leaves to be read. -/
def lead? (b : UInt8) : Option Pending :=
  if 0xC2 ≤ b && b ≤ 0xDF then some ⟨b.toNat - 0xC0, 1, 0x80, 0xBF⟩
  else if b == 0xE0 then some ⟨0, 2, 0xA0, 0xBF⟩
  else if b == 0xED then some ⟨0xD, 2, 0x80, 0x9F⟩
  else if 0xE1 ≤ b && b ≤ 0xEF then some ⟨b.toNat - 0xE0, 2, 0x80, 0xBF⟩
  else if b == 0xF0 then some ⟨0, 3, 0x90, 0xBF⟩
  else if b == 0xF4 then some ⟨4, 3, 0x80, 0x8F⟩
  else if 0xF1 ≤ b && b ≤ 0xF3 then some ⟨b.toNat - 0xF0, 3, 0x80, 0xBF⟩
  else none

/-- Units read so far, the latest first, and the character that is read in part. -/
structure Reading where
  units : List (Option Char)
  pending : Option Pending

def start (units : List (Option Char)) (b : UInt8) : Reading :=
  if b < 0x80 then ⟨some (Char.ofNat b.toNat) :: units, none⟩
  else
    match lead? b with
    | some p => ⟨units, some p⟩
    | none => ⟨none :: units, none⟩

def step (r : Reading) (b : UInt8) : Reading :=
  match r.pending with
  | none => start r.units b
  | some p =>
    if p.low ≤ b && b ≤ p.high then
      let bits := 64 * p.bits + (b.toNat - 0x80)
      if p.needed ≤ 1 then ⟨some (Char.ofNat bits) :: r.units, none⟩
      else ⟨r.units, some ⟨bits, p.needed - 1, 0x80, 0xBF⟩⟩
    else start (none :: r.units) b

/-- The characters of a run of bytes, with nothing in the place of each malformed unit. -/
def units (bs : List UInt8) : List (Option Char) :=
  let r := bs.foldl step ⟨[], none⟩
  (if r.pending.isSome then none :: r.units else r.units).reverse

def allSome : (found : Text) → List (Option Char) → Option Text
  | found, [] => some found.reverse
  | found, some c :: rest => allSome (c :: found) rest
  | _, none :: _ => none

/-- The text of well-formed bytes. -/
def decode? (bs : List UInt8) : Option Text := allSome [] (units bs)

/-- The text of any bytes, with a replacement character for each malformed unit. -/
def decodeLossy (bs : List UInt8) : Text := (units bs).map (·.getD '\ufffd')

end Retouch.Utf8
