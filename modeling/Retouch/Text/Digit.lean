import Retouch.Text.Basic

/-! Numerals in bases up to sixteen. -/
namespace Retouch

/-- The value of a hexadecimal digit of either case. -/
def digitValue? (c : Char) : Option Nat :=
  if '0' ≤ c && c ≤ '9' then some (c.toNat - '0'.toNat)
  else if 'a' ≤ c && c ≤ 'f' then some (c.toNat - 'a'.toNat + 10)
  else if 'A' ≤ c && c ≤ 'F' then some (c.toNat - 'A'.toNat + 10)
  else none

namespace Text

def numeralFrom (base value : Nat) : Text → Option Nat
  | [] => some value
  | c :: t => do
    let d ← digitValue? c
    if d < base then numeralFrom base (base * value + d) t else none

/-- The number that one or more digits stand for. -/
def numeral? (base : Nat) (t : Text) : Option Nat := if t.isEmpty then none else numeralFrom base 0 t

end Text
end Retouch
