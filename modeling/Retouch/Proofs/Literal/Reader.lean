import Mathlib.Tactic.SplitIfs
import Retouch.Literal.Style
import Retouch.Proofs.Text.Found
import Retouch.Proofs.Text.Utf16

/-! Reading the inside of a literal, as a script engine takes it: escapes are decoded to sixteen-bit
units, a template may hold expressions in braces after a dollar sign, and a quoted literal may be
interrupted by an expression that is concatenated with it. What cannot stand inside the literal, such
as its own quote or a line end where none may be, is not read at all. -/
namespace Retouch.Literal

/-- What stands in a literal: a unit of its text, or an expression. -/
inductive Item where
  | unit (u : Nat)
  | hole (expr : Text)
  deriving DecidableEq, Repr

/-- A run of text or an expression. -/
inductive Part where
  | text (t : Text)
  | hole (expr : Text)
  deriving DecidableEq, Repr

namespace Reader

/-- A line feed after a carriage return belongs to the same line end. -/
def dropFeed (t : Text) : Text := if t.head? = some '\n' then t.tail else t

def isLineEnd (c : Char) : Bool := c = '\n' || c = '\r' || c = '\u2028' || c = '\u2029'

/-- A unit with a fixed number of hexadecimal digits. -/
def hexUnit? (width : Nat) (t : Text) : Option (List Nat × Text) :=
  if (t.take width).length = width then
    (Text.numeral? 16 (t.take width)).map fun u => ([u], t.drop width)
  else none

/-- A code point with its digits in braces, after the opening one. -/
def codePoint? (t : Text) : Option (List Nat × Text) :=
  match t.dropWhile (· ≠ '\x7d') with
  | [] => none
  | _ :: rest =>
    match Text.numeral? 16 (t.takeWhile (· ≠ '\x7d')) with
    | none => none
    | some n =>
      if n < 0x10000 then some ([n], rest)
      else if n < 0x110000 then
        some ([0xD800 + (n - 0x10000) / 0x400, 0xDC00 + (n - 0x10000) % 0x400], rest)
      else none

/-- The control character that a letter stands for after a backslash. -/
def control (c : Char) : Char :=
  match c with
  | 'n' => '\n'
  | 'r' => '\r'
  | 't' => '\t'
  | 'b' => '\x08'
  | 'v' => '\x0b'
  | 'f' => '\x0c'
  | c => c

/-- What an escape stands for, after its backslash. A line end stands for nothing, a zero for itself
unless a digit follows, and other digits for nothing that is allowed. -/
def escape? : Text → Option (List Nat × Text)
  | [] => none
  | c :: t =>
    if c = 'u' then if t.head? = some '\x7b' then codePoint? t.tail else hexUnit? 4 t
    else if c = 'x' then hexUnit? 2 t
    else if isLineEnd c then some ([], if c = '\r' then dropFeed t else t)
    else if c.isDigit then
      if c = '0' && !t.head?.any Char.isDigit then some ([0], t) else none
    else some (Text.units16 (control c), t)

/-- The text before the brace that closes a hole, within `depth` further braces, and what follows. -/
def closing? (depth : Nat) : Text → Option (Text × Text)
  | [] => none
  | c :: t =>
    if c = '\x7d' then
      if depth = 0 then some ([], t)
      else (closing? (depth - 1) t).map fun (expr, rest) => (c :: expr, rest)
    else
      (closing? (if c = '\x7b' then depth + 1 else depth) t).map fun (expr, rest) => (c :: expr, rest)

/-- An expression that interrupts a quoted literal, after the quote that ends the literal before it. -/
def concatenated? (quote : Char) (t : Text) : Option (Text × Text) := do
  Text.splitOnce? (← Text.after? t ['+', '(']) [')', '+', quote]

/-- The first items of a literal and what follows them. -/
def step? (style : Style) (quote : Char) : Text → Option (List Item × Text)
  | [] => none
  | c :: t =>
    if c = '\\' then (escape? t).map fun (us, rest) => (us.map .unit, rest)
    else if c = quote then
      if style = .template then none
      else (concatenated? quote t).map fun (expr, rest) => ([.hole expr], rest)
    else if style = .template then
      if c = '$' && t.head? = some '\x7b' then
        (closing? 0 t.tail).map fun (expr, rest) => ([.hole expr], rest)
      else if c = '\r' then some ([.unit 10], dropFeed t)
      else some ((Text.units16 c).map .unit, t)
    else if c = '\n' || c = '\r' then none
    else some ((Text.units16 c).map .unit, t)

lemma length_dropFeed_le (t : Text) : (dropFeed t).length ≤ t.length := by
  unfold dropFeed
  split <;> simp

lemma length_le_of_hexUnit? {width : Nat} {t rest : Text} {us : List Nat}
    (h : hexUnit? width t = some (us, rest)) : rest.length ≤ t.length := by
  unfold hexUnit? at h
  split at h
  · obtain ⟨u, -, hu⟩ := Option.map_eq_some_iff.1 h
    cases hu
    simp
  · cases h

lemma length_le_of_codePoint? {t rest : Text} {us : List Nat}
    (h : codePoint? t = some (us, rest)) : rest.length ≤ t.length := by
  have hle := (List.dropWhile_sublist (l := t) (· ≠ '\x7d')).length_le
  unfold codePoint? at h
  split at h
  · cases h
  · next d r hdrop =>
    rw [hdrop, List.length_cons] at hle
    split at h
    · cases h
    · split_ifs at h
      · cases h
        omega
      · cases h
        omega

lemma length_le_of_escape? {t rest : Text} {us : List Nat} (h : escape? t = some (us, rest)) :
    rest.length ≤ t.length := by
  cases t with
  | nil => cases h
  | cons c t =>
    rw [List.length_cons]
    simp only [escape?] at h
    have htail : t.tail.length ≤ t.length := by simp
    have hfeed := length_dropFeed_le t
    split_ifs at h
    · have := length_le_of_codePoint? h
      omega
    · have := length_le_of_hexUnit? h
      omega
    · have := length_le_of_hexUnit? h
      omega
    · cases h
      omega
    · cases h
      omega
    · cases h
      omega
    · cases h
      omega

lemma length_lt_of_closing? {depth : Nat} {t expr rest : Text}
    (h : closing? depth t = some (expr, rest)) : rest.length < t.length := by
  induction t generalizing depth expr with
  | nil => cases h
  | cons c t ih =>
    rw [List.length_cons]
    unfold closing? at h
    split at h
    · split at h
      · cases h
        omega
      · obtain ⟨⟨e, r⟩, hr, heq⟩ := Option.map_eq_some_iff.1 h
        cases heq
        have := ih hr
        omega
    · obtain ⟨⟨e, r⟩, hr, heq⟩ := Option.map_eq_some_iff.1 h
      cases heq
      have := ih hr
      omega

lemma length_lt_of_concatenated? {quote : Char} {t expr rest : Text}
    (h : concatenated? quote t = some (expr, rest)) : rest.length < t.length := by
  obtain ⟨t', hafter, hsplit⟩ := Option.bind_eq_some_iff.1 h
  have hlen := congrArg List.length (Text.splitOnce?_go_eq_some hsplit)
  rw [Text.after?_eq_some.1 hafter]
  simp only [List.reverse_nil, List.nil_append, List.length_append, List.length_cons,
    List.length_nil] at hlen ⊢
  omega

lemma length_lt_of_step? {style : Style} {quote : Char} {t rest : Text} {read : List Item}
    (h : step? style quote t = some (read, rest)) : rest.length < t.length := by
  cases t with
  | nil => cases h
  | cons c t =>
    rw [List.length_cons]
    simp only [step?] at h
    have htail : t.tail.length ≤ t.length := by simp
    have hfeed := length_dropFeed_le t
    split_ifs at h
    · obtain ⟨⟨us, r⟩, hr, heq⟩ := Option.map_eq_some_iff.1 h
      obtain rfl : r = rest := congrArg Prod.snd heq
      have := length_le_of_escape? hr
      omega
    · obtain ⟨⟨e, r⟩, hr, heq⟩ := Option.map_eq_some_iff.1 h
      obtain rfl : r = rest := congrArg Prod.snd heq
      have := length_lt_of_concatenated? hr
      omega
    · obtain ⟨⟨e, r⟩, hr, heq⟩ := Option.map_eq_some_iff.1 h
      obtain rfl : r = rest := congrArg Prod.snd heq
      have := length_lt_of_closing? hr
      omega
    · cases h
      omega
    · cases h
      omega
    · cases h
      omega

/-- The items of a literal, if all of it can be read. -/
def items (style : Style) (quote : Char) (t : Text) : Option (List Item) :=
  if t.isEmpty then some []
  else
    match _h : step? style quote t with
    | none => none
    | some (read, rest) => (items style quote rest).map (read ++ ·)
termination_by t.length
decreasing_by exact length_lt_of_step? _h

/-- A run of units as a part, unless it is empty. -/
def run? (us : List Nat) : Option (List Part) :=
  if us.isEmpty then some [] else (Text.ofUnits16? us).map ([.text ·])

/-- The parts of some items, after the units of a run that has begun. -/
def gather (pending : List Nat) : List Item → Option (List Part)
  | [] => run? pending
  | .unit u :: is => gather (pending ++ [u]) is
  | .hole expr :: is => do return (← run? pending) ++ .hole expr :: (← gather [] is)

end Reader

/-- The parts of what stands inside a literal of a quoted style. -/
def read? (style : Style) (t : Text) : Option (List Part) := do
  Reader.gather [] (← Reader.items style (← style.quote?) t)

end Retouch.Literal
