import Retouch.Text.Digit

/-! The text of scalars: words that stand for themselves, quoted text, and blocks of lines. One line
break between two words reads as a space, and of several the first is dropped. -/
namespace Retouch.Yaml

def isBreak (c : Char) : Bool :=
  c = '\n' || c = '\r' || c = '\u0085' || c = '\u2028' || c = '\u2029'

def isSpacing (c : Char) : Bool := c = ' ' || c = '\t'

def isGap (c : Char) : Bool := isSpacing c || isBreak c

/-- No word starts here. -/
def atGap : Text → Bool
  | [] => true
  | c :: _ => isGap c

/-- A line that starts like this bounds a document. -/
def atBoundary : Text → Bool
  | '-' :: '-' :: '-' :: t | '.' :: '.' :: '.' :: t => atGap t
  | _ => false

/-- The character that a break adds to a text. -/
def breakChar (c : Char) : Char := if c = '\u2028' || c = '\u2029' then c else '\n'

/-- What stands between two words. -/
structure Gap where
  /-- Spaces and tabs before the first break. -/
  spaces : Text
  breaks : Text
  isBroken : Bool
  /-- Where the gap ends on its line, if it is broken. -/
  column : Nat
  /-- Columns of the tabs that lines start with. -/
  tabs : List Nat

namespace Gap

def empty : Gap := ⟨[], [], false, 0, []⟩

/-- The gap after a break that is not part of the text. -/
def afterBreak : Gap := { empty with isBroken := true }

def addBreak (g : Gap) (c : Char) : Gap :=
  { g with breaks := g.breaks ++ [c], isBroken := true, column := 0 }

def addSpacing (g : Gap) (c : Char) : Gap :=
  if g.isBroken then
    { g with column := g.column + 1, tabs := if c = '\t' then g.column :: g.tabs else g.tabs }
  else { g with spaces := g.spaces ++ [c] }

/-- The rest of a gap, and what follows it. -/
def extend (g : Gap) : Text → Gap × Text
  | '\r' :: '\n' :: t => extend (g.addBreak '\n') t
  | c :: t =>
    if isBreak c then extend (g.addBreak (breakChar c)) t
    else if isSpacing c then extend (g.addSpacing c) t
    else (g, c :: t)
  | [] => (g, [])

/-- What a gap reads as between two words. -/
def folded (g : Gap) : Text :=
  if g.isBroken then
    match g.breaks with
    | ['\n'] => [' ']
    | '\n' :: more => more
    | breaks => breaks
  else g.spaces

/-- A boundary follows on a line of its own. -/
def endsDocument (g : Gap) (rest : Text) : Bool := g.isBroken && g.column = 0 && atBoundary rest

end Gap

/-- What follows one line break. -/
def dropBreak : Text → Text
  | '\r' :: '\n' :: t => t
  | [] => []
  | _ :: t => t

/-- Escapes of one character after the backslash. -/
def escapes : List (Char × Char) := [
  ('0', '\x00'), ('a', '\x07'), ('b', '\x08'), ('t', '\t'), ('\t', '\t'), ('n', '\n'), ('v', '\x0b'),
  ('f', '\x0c'), ('r', '\r'), ('e', '\x1b'), (' ', ' '), ('"', '"'), ('/', '/'), ('\\', '\\'),
  ('N', '\u0085'), ('_', '\u00a0'), ('L', '\u2028'), ('P', '\u2029')]

/-- A character given by some number of hexadecimal digits. -/
def codePoint (count : Nat) (t : Text) : Option (Char × Text) := do
  let digits := t.take count
  let n ← Text.numeral? 16 digits
  if digits.length = count && n.isValidChar then return (Char.ofNat n, t.drop count) else none

/-- A character given by an escape, after the backslash. -/
def escaped : Text → Option (Char × Text)
  | [] => none
  | 'x' :: t => codePoint 2 t
  | 'u' :: t => codePoint 4 t
  | 'U' :: t => codePoint 8 t
  | c :: t => (escapes.lookup c).map (·, t)

/-- The text of a quoted scalar after its opening quote, and what follows the closing one. Each round
takes at least one character. -/
def quotedBody (isDouble : Bool) : (fuel : Nat) → (found : Text) → Text → Option (Text × Text)
  | 0, _, _ => none
  | _ + 1, _, [] => none
  | fuel + 1, found, c :: t =>
    let resume (g : Gap) (text rest : Text) : Option (Text × Text) :=
      if g.endsDocument rest then none else quotedBody isDouble fuel (text.reverse ++ found) rest
    if isGap c then
      let (g, rest) := Gap.empty.extend (c :: t)
      resume g g.folded rest
    else if isDouble then
      if c = '"' then some (found.reverse, t)
      else if c = '\\' then
        if t.head?.any isBreak then
          let (g, rest) := Gap.afterBreak.extend (dropBreak t)
          resume g g.breaks rest
        else do
          let (e, rest) ← escaped t
          quotedBody isDouble fuel (e :: found) rest
      else quotedBody isDouble fuel (c :: found) t
    else
      if c = '\'' then
        match t with
        | '\'' :: t => quotedBody isDouble fuel ('\'' :: found) t
        | _ => some (found.reverse, t)
      else quotedBody isDouble fuel (c :: found) t

def quoted (isDouble : Bool) (t : Text) : Option (Text × Text) :=
  quotedBody isDouble (t.length + 1) [] t

/-- Brackets, braces and the comma between them. -/
def isFlowMark (c : Char) : Bool := c = ',' || c = '[' || c = ']' || c = '\x7b' || c = '\x7d'

/-- A word up to a gap, a colon before a gap, or a mark of the collection around it. -/
def plainWord (inFlow : Bool) (found : Text) : Text → Option (Text × Text)
  | [] => some (found.reverse, [])
  | c :: t =>
    if isGap c || (inFlow && isFlowMark c) || (c = ':' && atGap t) then some (found.reverse, c :: t)
    else if inFlow && c = ':' && t.head?.any (fun d => isFlowMark d || d = '?') then none
    else plainWord inFlow (c :: found) t

structure Plain where
  text : Text
  /-- A line break has been taken after the text. -/
  isBroken : Bool

/-- More words of a plain scalar, as long as they are not indented less than `indent`. Each round
takes at least one character. -/
def plainWords (inFlow : Bool) (indent : Nat) :
    (fuel : Nat) → (found : Text) → Text → Option (Plain × Text)
  | 0, _, _ => none
  | fuel + 1, found, t =>
    let (g, rest) := Gap.empty.extend t
    let stop := some (⟨found, g.isBroken⟩, rest)
    if g.tabs.any (· < indent) then none
    else if g.isBroken && !inFlow && g.column < indent then stop
    else if g.endsDocument rest || rest.head? = some '#' then stop
    else do
      let (word, more) ← plainWord inFlow [] rest
      if word.isEmpty then stop else plainWords inFlow indent fuel (found ++ g.folded ++ word) more

/-- A plain scalar. -/
def plain (inFlow : Bool) (indent : Nat) (t : Text) : Option (Plain × Text) := do
  let (word, rest) ← plainWord inFlow [] t
  plainWords inFlow indent (t.length + 1) word rest

/-- What becomes of the line breaks at the end of a block. -/
inductive Chomping where
  | strip
  | clip
  | keep
  deriving DecidableEq, Repr

structure BlockStyle where
  isFolded : Bool
  chomping : Chomping
  /-- The indentation beyond that of the block around, if it is given. -/
  depth : Option Nat

def chomping? : Text → Option (Chomping × Text)
  | '+' :: t => some (.keep, t)
  | '-' :: t => some (.strip, t)
  | _ => none

/-- An indentation of one digit, which is not zero. -/
def depth? (t : Text) : Option (Option Nat × Text) :=
  match t with
  | [] => some (none, [])
  | c :: rest =>
    if c = '0' then none
    else if c.isDigit then some (digitValue? c, rest)
    else some (none, t)

/-- The first line of a block after its mark, and the lines below it. -/
def blockStyle (isFolded : Bool) (t : Text) : Option (BlockStyle × Text) := do
  let (style, t) ← match chomping? t with
    | some (chomping, t) => do
      let (depth, t) ← depth? t
      pure (BlockStyle.mk isFolded chomping depth, t)
    | none => do
      let (depth, t) ← depth? t
      match depth.bind fun _ => chomping? t with
      | some (chomping, t) => pure (BlockStyle.mk isFolded chomping depth, t)
      | none => pure (BlockStyle.mk isFolded .clip depth, t)
  let t := t.dropWhile isSpacing
  let t := if t.head? = some '#' then t.dropWhile (!isBreak ·) else t
  if t.head?.all isBreak then some (style, dropBreak t) else none

/-- Empty lines of a block and the indentation of the line after them. -/
structure Margin where
  breaks : Text
  column : Nat
  /-- The deepest indentation of all these lines. -/
  deepest : Nat

/-- Reads a margin; a tab may not stand where the indentation goes on. -/
def margin (indent : Option Nat) (m : Margin) : Text → Option (Margin × Text)
  | '\r' :: '\n' :: t => margin indent { m with breaks := m.breaks ++ ['\n'], column := 0 } t
  | c :: t =>
    let isShort := indent.all (m.column < ·)
    if c = ' ' && isShort then
      margin indent ⟨m.breaks, m.column + 1, max m.deepest (m.column + 1)⟩ t
    else if c = '\t' && isShort then none
    else if isBreak c then
      margin indent { m with breaks := m.breaks ++ [breakChar c], column := 0 } t
    else some (m, c :: t)
  | [] => some (m, [])

/-- The break that ends a line, as it is in the text. -/
def lineBreak (t : Text) : Text := (t.head?.map breakChar).toList

/-- A block read in part: its text up to the last line, and the break after that line. -/
structure BlockText where
  found : Text
  lastBreak : Text
  /-- The last line starts with a space or tab, and so is not folded. -/
  isSpaced : Bool

/-- Adds the lines of a block that are indented as deep as its first line. -/
def blockLines (isFolded : Bool) (indent : Nat) :
    (fuel : Nat) → BlockText → Margin → Text → Option (BlockText × Margin × Text)
  | 0, _, _, _ => none
  | fuel + 1, b, m, t =>
    if m.column ≠ indent || t.isEmpty then some (b, m, t)
    else do
      let isSpaced := t.head?.any isSpacing
      let joint :=
        if isFolded && b.lastBreak = ['\n'] && !b.isSpaced && !isSpaced then
          if m.breaks.isEmpty then [' '] else []
        else b.lastBreak
      let rest := t.dropWhile (!isBreak ·)
      let found := b.found ++ joint ++ m.breaks ++ t.takeWhile (!isBreak ·)
      let (m, t) ← margin (some indent) ⟨[], 0, 0⟩ (dropBreak rest)
      blockLines isFolded indent fuel ⟨found, lineBreak rest, isSpaced⟩ m t

/-- A block of lines after its mark, within a block of the given indentation. -/
def block (isFolded : Bool) (outer : Option Nat) (t : Text) : Option (Text × Text) := do
  let (style, t) ← blockStyle isFolded t
  let given := style.depth.map (outer.getD 0 + ·)
  let (m, t) ← margin given ⟨[], 0, 0⟩ t
  let least := outer.elim 1 (· + 1)
  let indent := given.getD (max m.deepest least)
  let (b, m, t) ← blockLines isFolded indent (t.length + 1) ⟨[], [], false⟩ m t
  let lastBreak := if style.chomping = .strip then [] else b.lastBreak
  let breaks := if style.chomping = .keep then m.breaks else []
  return (b.found ++ lastBreak ++ breaks, t)

end Retouch.Yaml
