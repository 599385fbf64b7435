import Retouch.Pattern.Basic

/-! Release numbers of the bundle: reading, printing, order, and the banner that names one. -/
namespace Retouch

structure Release where
  major : UInt32
  minor : UInt32
  patch : UInt32
  deriving DecidableEq, Repr

namespace Release

instance : Ord Release where
  compare a b :=
    ((compare a.major b.major).then (compare a.minor b.minor)).then (compare a.patch b.patch)

def render (v : Release) : String :=
  v.major.toNat.repr ++ "." ++ v.minor.toNat.repr ++ "." ++ v.patch.toNat.repr

/-- The value of a run of ASCII digits. -/
def digitsValue (digits : Text) : Nat := digits.foldl (fun n c => 10 * n + (c.toNat - 48)) 0

/-- A non-empty run of ASCII digits whose value fits 32 bits. -/
def part? (digits : Text) : Option UInt32 :=
  if digits.isEmpty || !digits.all Char.isDigit then none
  else if h : digitsValue digits < UInt32.size then some (UInt32.ofNatLT (digitsValue digits) h)
  else none

/-- One to three parts separated by dots, after any leading `v`s and up to the first `-` or `+`.
Missing parts are zero. -/
def parse? (t : Text) : Option Release :=
  let core := ((t.trim.dropWhile (· == 'v')).takeWhile fun c => c != '-' && c != '+')
  match Text.splitAll core (· == '.') with
  | [a] => do return ⟨← part? a, 0, 0⟩
  | [a, b] => do return ⟨← part? a, ← part? b, 0⟩
  | [a, b, c] => do return ⟨← part? a, ← part? b, ← part? c⟩
  | _ => none

/-- The line that names the release. -/
def banner : Pattern :=
  let number := Pattern.capture (.oneOrMore .digit)
  .all [.lineStart, .text "//", .anyNumber .blank, .text "Version:", .anyNumber .blank,
    number, .text ".", number, .text ".", number]

/-- Bytes at the head of the bundle that are searched for the banner. -/
def bannerReach : Nat := 4096

/-- The release that the first banner near the top of a bundle names. -/
def ofBanner? (t : Text) : Option Release := do
  let head ← t.slice? 0 (t.boundaryBefore bannerReach)
  match (← banner.find? head).captures with
  | [a, b, c] =>
    let part (s : Span) : Option UInt32 := do part? (← head.slice? s.start s.stop)
    return ⟨← part a, ← part b, ← part c⟩
  | _ => none

end Release

/-- Releases from an inclusive minimum up to an exclusive maximum; either bound may be absent. -/
structure Release.Range where
  min : Option Release
  max : Option Release
  deriving DecidableEq, Repr

namespace Release.Range

def unbounded : Release.Range := ⟨none, none⟩

/-- An unknown release counts as within every range. -/
def admits (r : Release.Range) : Option Release → Bool
  | none => true
  | some v =>
    r.min.all (fun least => (compare v least).isGE) &&
      r.max.all (fun limit => (compare v limit).isLT)

def render (r : Release.Range) : String :=
  match r.min, r.max with
  | none, none => "*"
  | some least, none => ">=" ++ least.render
  | none, some limit => "<" ++ limit.render
  | some least, some limit => ">=" ++ least.render ++ ", <" ++ limit.render

end Release.Range
end Retouch
