import Retouch.Yaml.Scalar
import Retouch.Text.Utf8

/-! Tokens of a document. Marks in the text are tokens; so are the starts and ends of block
collections, which indentation alone shows, and the starts of keys, which the colon after them shows. -/
namespace Retouch.Yaml

inductive ScalarStyle where
  | plain
  | quoted
  | literal
  | folded
  deriving DecidableEq, Repr

inductive Token where
  | version (major minor : Nat)
  /-- A tag handle stands for the start of a tag. -/
  | handle (name start : Text)
  | documentStart
  | documentEnd
  | blockSequence
  | blockMapping
  | blockEnd
  | flowSequence
  | flowSequenceEnd
  | flowMapping
  | flowMappingEnd
  | entry
  | comma
  | key
  | value
  | alias (name : Text)
  | anchor (name : Text)
  | tag (handle rest : Text)
  | scalar (style : ScalarStyle) (text : Text)
  deriving DecidableEq, Repr

def isNameChar (c : Char) : Bool := c.isAlphanum || c = '_' || c = '-'

def isUriChar (inAngles : Bool) (c : Char) : Bool :=
  isNameChar c || ";/?:@&=+$.%!~*'()".toList.contains c || (inAngles && (c = ',' || c = '[' || c = ']'))

/-- The bytes of a URI, of which some are given by two digits after a percent sign. -/
def uriBytes : Text → Option (List UInt8)
  | [] => some []
  | '%' :: a :: b :: t => do
    let n ← Text.numeral? 16 [a, b]
    return n.toUInt8 :: (← uriBytes t)
  | '%' :: _ => none
  | c :: t => do return Text.bytes [c] ++ (← uriBytes t)

/-- A URI, and what follows it. -/
def uri (inAngles : Bool) (t : Text) : Option (Text × Text) := do
  let bytes ← uriBytes (t.takeWhile (isUriChar inAngles))
  return (← Utf8.decode? bytes, t.dropWhile (isUriChar inAngles))

def nonempty (t : Text) : Option Text := if t.isEmpty then none else some t

/-- A tag after its exclamation mark. -/
def tag (t : Text) : Option (Token × Text) :=
  match t with
  | '<' :: t => do
    let (whole, t) ← uri true t
    if t.head? = some '>' then return (.tag [] (← nonempty whole), t.tail) else none
  | t =>
    let name := t.takeWhile isNameChar
    match t.dropWhile isNameChar with
    | '!' :: t => do
      let (rest, t) ← uri false t
      return (.tag ('!' :: name ++ ['!']) (← nonempty rest), t)
    | _ => do
      let (rest, t) ← uri false t
      return (if rest.isEmpty then .tag [] ['!'] else .tag ['!'] rest, t)

def skipSpacing (t : Text) : Text := t.dropWhile isSpacing

/-- A number of at most nine digits. -/
def shortNumber (t : Text) : Option (Nat × Text) := do
  let digits := t.takeWhile Char.isDigit
  if 9 < digits.length then none else return (← Text.numeral? 10 digits, t.dropWhile Char.isDigit)

/-- What a directive holds after its name. -/
def directiveBody (name t : Text) : Option (Token × Text) :=
  if name = "YAML".toList then do
    let (major, t) ← shortNumber (skipSpacing t)
    match t with
    | '.' :: t => do
      let (minor, t) ← shortNumber t
      return (.version major minor, t)
    | _ => none
  else if name = "TAG".toList then
    match skipSpacing t with
    | '!' :: t => do
      let inner := t.takeWhile isNameChar
      let (handle, t) ← match t.dropWhile isNameChar with
        | '!' :: t => some ('!' :: inner ++ ['!'], t)
        | t => if inner.isEmpty then some (['!'], t) else none
      if t.head?.any isSpacing then do
        let (start, t) ← uri true (skipSpacing t)
        if atGap t then return (.handle handle (← nonempty start), t) else none
      else none
    | _ => none
  else none

/-- A directive after its percent sign, to the end of its line. -/
def directive (t : Text) : Option (Token × Text) := do
  let name ← nonempty (t.takeWhile isNameChar)
  let t := t.dropWhile isNameChar
  if !atGap t then none
  let (found, t) ← directiveBody name t
  let t := skipSpacing t
  let t := if t.head? = some '#' then t.dropWhile (!isBreak ·) else t
  if t.head?.all isBreak then return (found, dropBreak t) else none

/-- A place in the text. -/
structure Mark where
  index : Nat
  line : Nat
  column : Nat

def Mark.past (m : Mark) (c : Char) : Mark :=
  if isBreak c then ⟨m.index + 1, m.line + 1, 0⟩ else ⟨m.index + 1, m.line, m.column + 1⟩

/-- A token that turns out to start a key if a colon follows. -/
structure PossibleKey where
  mark : Mark
  tokensBefore : Nat
  /-- Nothing else may stand here. -/
  isRequired : Bool

/-- A key and its colon are on one line and not too far from each other. -/
def PossibleKey.isLate (k : PossibleKey) (here : Mark) : Bool :=
  k.mark.line < here.line || k.mark.index + 1024 < here.index

/-- Text on its way to tokens, and what the layout so far says about the tokens to come. -/
structure Layout where
  rest : Text
  mark : Mark
  /-- The latest token first. -/
  tokens : List Token
  /-- Columns of the open block collections, the innermost first. -/
  indents : List Nat
  /-- The possible key of the innermost flow collection, or of what is outside of them all. -/
  possibleKey : Option PossibleKey
  /-- The possible keys around the open flow collections. -/
  outerKeys : List (Option PossibleKey)
  keyAllowed : Bool

abbrev Lexer := StateT Layout Option

namespace Lexer

def inFlow : Lexer Bool := do return !(← get).outerKeys.isEmpty

def skip (count : Nat) : Lexer Unit :=
  modify fun l => { l with
    rest := l.rest.drop count
    mark := (l.rest.take count).foldl Mark.past l.mark }

/-- Goes on to what is left of the text. -/
def goTo (rest : Text) : Lexer Unit := do skip ((← get).rest.length - rest.length)

def push (t : Token) : Lexer Unit := modify fun l => { l with tokens := t :: l.tokens }

/-- Puts a token after the first `count` ones. -/
def insertAfter (count : Nat) (t : Token) : Lexer Unit :=
  modify fun l =>
    let later := l.tokens.length - count
    { l with tokens := l.tokens.take later ++ t :: l.tokens.drop later }

def allowKey (isAllowed : Bool) : Lexer Unit := modify fun l => { l with keyAllowed := isAllowed }

/-- What could have been a key is none. -/
def forgetKey : Lexer Unit := do
  if (← get).possibleKey.any (·.isRequired) then failure
  modify fun l => { l with possibleKey := none }

/-- The next token may start a key, where keys are allowed. -/
def expectKey : Lexer Unit := do
  let l ← get
  if l.keyAllowed then
    forgetKey
    let isRequired := !(← inFlow) && l.indents.head? = some l.mark.column
    modify fun l => { l with possibleKey := some ⟨l.mark, l.tokens.length, isRequired⟩ }

def dropLate (here : Mark) : Option PossibleKey → Option (Option PossibleKey)
  | none => some none
  | some k => if !k.isLate here then some (some k) else if k.isRequired then none else some none

/-- Forgets keys whose colon would come too late. -/
def dropLateKeys : Lexer Unit := do
  let l ← get
  let possibleKey ← (dropLate l.mark l.possibleKey : Option _)
  let outerKeys ← (l.outerKeys.mapM (dropLate l.mark) : Option _)
  set { l with possibleKey, outerKeys }

/-- Opens a block collection, unless one is open at the column. -/
def openBlock (column count : Nat) (t : Token) : Lexer Unit := do
  if !(← inFlow) && (← get).indents.head?.all (· < column) then
    insertAfter count t
    modify fun l => { l with indents := column :: l.indents }

/-- Opens a block collection here. -/
def openBlockHere (t : Token) : Lexer Unit := do
  if !(← get).keyAllowed then failure
  let l ← get
  openBlock l.mark.column l.tokens.length t

/-- Closes the block collections whose columns do not stay open. -/
def closeBlocks (isOpen : Nat → Bool) : Lexer Unit := do
  if !(← inFlow) then
    modify fun l => { l with
      tokens := (l.indents.takeWhile (!isOpen ·)).map (fun _ => .blockEnd) ++ l.tokens
      indents := l.indents.dropWhile (!isOpen ·) }

/-- Passes over spacing, breaks and comments; a break allows a key in block collections. -/
def toToken (inFlow : Bool) : (keyAllowed inComment : Bool) → Text → Bool × Text
  | keyAllowed, _, [] => (keyAllowed, [])
  | keyAllowed, inComment, c :: t =>
    if isBreak c then toToken inFlow (keyAllowed || !inFlow) false t
    else if inComment || c = ' ' || (c = '\t' && (inFlow || !keyAllowed)) then
      toToken inFlow keyAllowed inComment t
    else if c = '#' then toToken inFlow keyAllowed true t
    else (keyAllowed, c :: t)

/-- A token in the place of some characters. -/
def mark (count : Nat) (t : Token) : Lexer Unit := do
  skip count
  push t

def boundary (t : Token) : Lexer Unit := do
  closeBlocks fun _ => false
  forgetKey
  allowKey false
  mark 3 t

def openFlow (t : Token) : Lexer Unit := do
  expectKey
  modify fun l => { l with possibleKey := none, outerKeys := l.possibleKey :: l.outerKeys }
  allowKey true
  mark 1 t

def closeFlow (t : Token) : Lexer Unit := do
  forgetKey
  modify fun l =>
    match l.outerKeys with
    | [] => l
    | k :: ks => { l with possibleKey := k, outerKeys := ks }
  allowKey false
  mark 1 t

def comma : Lexer Unit := do
  forgetKey
  allowKey true
  mark 1 .comma

def entry : Lexer Unit := do
  if !(← inFlow) then openBlockHere .blockSequence
  forgetKey
  allowKey true
  mark 1 .entry

def key : Lexer Unit := do
  let inFlow ← inFlow
  if !inFlow then openBlockHere .blockMapping
  forgetKey
  allowKey (!inFlow)
  mark 1 .key

def value : Lexer Unit := do
  match (← get).possibleKey with
  | some k =>
    insertAfter k.tokensBefore .key
    openBlock k.mark.column k.tokensBefore .blockMapping
    modify fun l => { l with possibleKey := none }
    allowKey false
  | none =>
    let inFlow ← inFlow
    if !inFlow then openBlockHere .blockMapping
    allowKey (!inFlow)
  mark 1 .value

/-- A token whose text is found by a reader after its first `count` characters. -/
def found (count : Nat) (read : Text → Option (Token × Text)) : Lexer Unit := do
  let (t, rest) ← (read ((← get).rest.drop count) : Option _)
  goTo rest
  push t

/-- The name of an anchor or alias. -/
def name (build : Text → Token) (t : Text) : Option (Token × Text) := do
  let found ← nonempty (t.takeWhile isNameChar)
  let rest := t.dropWhile isNameChar
  if atGap rest || rest.head?.any ("?:,]\x7d%@\x60".toList.contains ·) then return (build found, rest) else none

/-- A token that may start a key, and after which none may start. -/
def keyLike (count : Nat) (read : Text → Option (Token × Text)) : Lexer Unit := do
  expectKey
  allowKey false
  found count read

def tagHere : Lexer Unit := do
  let inFlow ← inFlow
  keyLike 1 fun t => do
    let (found, rest) ← tag t
    if atGap rest || (inFlow && rest.head? = some ',') then return (found, rest) else none

def blockScalar (isFolded : Bool) : Lexer Unit := do
  forgetKey
  allowKey true
  let outer := (← get).indents.head?
  found 1 fun t => do
    let (text, rest) ← block isFolded outer t
    return (.scalar (if isFolded then .folded else .literal) text, rest)

def quotedScalar (isDouble : Bool) : Lexer Unit :=
  keyLike 1 fun t => do
    let (text, rest) ← quoted isDouble t
    return (.scalar .quoted text, rest)

def plainScalar : Lexer Unit := do
  expectKey
  let l ← get
  let (p, rest) ← (plain (← inFlow) (l.indents.head?.elim 0 (· + 1)) l.rest : Option _)
  goTo rest
  push (.scalar .plain p.text)
  allowKey p.isBroken

/-- Characters that start no plain scalar. -/
def indicators : String := "-?:,[]\x7b\x7d#&*!|>'\"%@\x60"

def startsPlain (inFlow : Bool) : Text → Bool
  | [] => false
  | c :: t =>
    if c = '-' then !t.head?.any isSpacing
    else if c = '?' || c = ':' then !inFlow && !atGap t
    else !isGap c && !indicators.toList.contains c

/-- The token that starts with the next character. -/
def token : Lexer Unit := do
  let l ← get
  let inFlow ← inFlow
  match l.rest with
  | [] => failure
  | c :: t =>
    let atStart := l.mark.column = 0
    if atStart && c = '%' then
      closeBlocks fun _ => false
      forgetKey
      allowKey false
      found 1 directive
    else if atStart && atBoundary l.rest then boundary (if c = '-' then .documentStart else .documentEnd)
    else if c = '[' then openFlow .flowSequence
    else if c = '\x7b' then openFlow .flowMapping
    else if c = ']' then closeFlow .flowSequenceEnd
    else if c = '\x7d' then closeFlow .flowMappingEnd
    else if c = ',' then comma
    else if c = '-' && atGap t then entry
    else if c = '?' && (inFlow || atGap t) then key
    else if c = ':' && (inFlow || atGap t) then value
    else if c = '*' then keyLike 1 (name .alias)
    else if c = '&' then keyLike 1 (name .anchor)
    else if c = '!' then tagHere
    else if c = '|' && !inFlow then blockScalar false
    else if c = '>' && !inFlow then blockScalar true
    else if c = '\'' then quotedScalar false
    else if c = '"' then quotedScalar true
    else if startsPlain inFlow l.rest then plainScalar
    else failure

/-- All tokens to come. Each round takes at least one character. -/
def tokens : (fuel : Nat) → Lexer Unit
  | 0 => failure
  | fuel + 1 => do
    let l ← get
    let (keyAllowed, rest) := toToken (← inFlow) l.keyAllowed false l.rest
    goTo rest
    allowKey keyAllowed
    dropLateKeys
    let column := (← get).mark.column
    closeBlocks (· ≤ column)
    if rest.isEmpty then
      closeBlocks fun _ => false
      forgetKey
    else
      token
      tokens fuel

end Lexer

/-- Control characters other than tabs and breaks have no place in a document. -/
def isAllowed (c : Char) : Bool :=
  let n := c.toNat
  n = 9 || n = 10 || n = 13 || (0x20 ≤ n && n ≤ 0x7E) || n = 0x85 || (0xA0 ≤ n && n ≤ 0xFFFD) ||
    0x10000 ≤ n

/-- The tokens of a text. -/
def Token.ofText? (t : Text) : Option (List Token) := do
  if !t.all isAllowed then none
  let start : Layout := ⟨t, ⟨0, 0, 0⟩, [], [], none, [], true⟩
  let read : Lexer Unit := do
    if t.head? = some '\ufeff' then Lexer.skip 1
    Lexer.tokens (t.length + 1)
  let (_, done) ← read.run start
  return done.tokens.reverse

end Retouch.Yaml
