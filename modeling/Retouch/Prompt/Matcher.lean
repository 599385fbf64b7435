import Retouch.Pattern.Site
import Retouch.Prompt.Basic
import Retouch.Text.Utf16
import Retouch.Literal.Render

/-! Finding a prompt in the source. The literal around it may hold line feeds, quotes, backslashes
and characters beyond ASCII as they are or escaped, and each gap holds one identifier. -/
namespace Retouch.Prompt

/-- A hexadecimal digit in either case. -/
def hexDigit (c : Char) : Pattern := .many (.oneOf [c, c.toUpper]) 1 (some 1)

/-- The escape of a sixteen-bit unit, with its digits in either case. -/
def unitPattern (unit : Nat) : Pattern :=
  .all (.literal ['\\', 'u'] :: (Text.hexPadded 4 unit).map hexDigit)

/-- A character of a prompt as it is or escaped. -/
def tolerant (c : Char) : Pattern :=
  if c = '\n' then .alt (.literal ['\n']) (.literal ['\\', 'n'])
  else if c = '"' || c = '\'' || c = '\x60' then .seq (.many (.oneOf ['\\']) 0 (some 1)) (.literal [c])
  else if c = '\\' then .many (.oneOf ['\\']) 1 (some 2)
  else if c.toNat < 128 then .literal [c]
  else .alt (.literal [c]) (.all ((Text.units16 c).map unitPattern))

/-- Pieces with a captured identifier in each gap. -/
def matcher (pieces : List Text) : Pattern :=
  .all ((pieces.map (·.map tolerant)).intersperse [.nameGroup]).flatten

/-- Takes identifiers for the variables of slots. A variable that occurs again has to have the
identifier it had before. -/
def bindSlots (p : Prompt) (bound : Literal.Identifiers) :
    List (Nat × Text) → Option Literal.Identifiers
  | [] => some bound
  | (slot, identifier) :: rest =>
    match p.slotNames.get? slot with
    | none => bindSlots p bound rest
    | some name =>
      match bound.get? name with
      | none => bindSlots p (bound.insert name identifier) rest
      | some known => if known = identifier then bindSlots p bound rest else none

/-- The identifiers that a match captured, if they agree. -/
def identifiersOf (p : Prompt) (t : Text) (m : Match) : Attempt (Option Literal.Identifiers) := do
  let found ← m.captures.mapM fun s => Attempt.demand (t.slice? s.start s.stop)
  return bindSlots p .empty (p.slots.zip found)

/-- The first match whose identifiers agree. -/
def locate (p : Prompt) (t : Text) : Attempt (Span × Literal.Identifiers) := do
  let place (m : Match) : Attempt (Option (Span × Literal.Identifiers)) := do
    return (← p.identifiersOf t m).map (m.span, ·)
  .orSkip (← ((matcher p.pieces).matchesIn t).findSomeM? place) (.noMatch p.id)

end Retouch.Prompt
