/-! Decimal numbers, and whether a double can hold one. -/
namespace Retouch

/-- A significand times a power of ten. -/
structure Decimal where
  significand : Nat
  exponent : Int
  deriving DecidableEq, Repr

/-- The nearest double would lie past the largest one. -/
def Decimal.isHuge (d : Decimal) : Bool :=
  let limit := Nat.pow 2 1024 - Nat.pow 2 970
  if d.significand = 0 then false
  else
    match d.exponent with
    | .ofNat n => 400 ≤ n || limit ≤ d.significand * Nat.pow 10 n
    | .negSucc n => limit ≤ d.significand / Nat.pow 10 (min (n + 1) (d.significand.log2 + 1))

end Retouch
