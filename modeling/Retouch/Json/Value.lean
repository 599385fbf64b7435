import Retouch.Text.Utf16

/-! JSON values and their text. Members of an object are written in the order in which they are
given. Strings are escaped where they have to be and nowhere else. -/
namespace Retouch

inductive Json where
  | null
  | bool (b : Bool)
  | number (n : Nat)
  | string (s : String)
  | array (items : List Json)
  | object (members : List (String × Json))
  deriving Repr

namespace Json

/-- A character of a string. -/
def escapedChar (c : Char) : Text :=
  match c with
  | '"' => ['\\', '"']
  | '\\' => ['\\', '\\']
  | '\x08' => ['\\', 'b']
  | '\x0c' => ['\\', 'f']
  | '\n' => ['\\', 'n']
  | '\r' => ['\\', 'r']
  | '\t' => ['\\', 't']
  | c => if c.toNat < 0x20 then Text.unitEscape c.toNat else [c]

def quoted (t : Text) : Text := '"' :: t.flatMap escapedChar ++ ['"']

mutual

/-- The text without any space. -/
def compact : Json → Text
  | null => "null".toList
  | bool b => (if b then "true" else "false").toList
  | number n => n.repr.toList
  | string s => quoted s.toList
  | array items => '[' :: compactItems items ++ [']']
  | object members => '\x7b' :: compactMembers members ++ ['\x7d']

def compactItems : List Json → Text
  | [] => []
  | [j] => compact j
  | j :: rest => compact j ++ ',' :: compactItems rest

def compactMembers : List (String × Json) → Text
  | [] => []
  | [(key, j)] => quoted key.toList ++ ':' :: compact j
  | (key, j) :: rest => quoted key.toList ++ ':' :: compact j ++ ',' :: compactMembers rest

end

def indent (depth : Nat) : Text := '\n' :: List.replicate (2 * depth) ' '

mutual

/-- The text with one member or item to a line, indented by two spaces for each level. -/
def prettyAt (depth : Nat) : Json → Text
  | null => "null".toList
  | bool b => (if b then "true" else "false").toList
  | number n => n.repr.toList
  | string s => quoted s.toList
  | array items =>
    if items.isEmpty then "[]".toList
    else '[' :: prettyItems (depth + 1) items ++ indent depth ++ [']']
  | object members =>
    if members.isEmpty then "\x7b\x7d".toList
    else '\x7b' :: prettyMembers (depth + 1) members ++ indent depth ++ ['\x7d']

def prettyItems (depth : Nat) : List Json → Text
  | [] => []
  | [j] => indent depth ++ prettyAt depth j
  | j :: rest => indent depth ++ prettyAt depth j ++ ',' :: prettyItems depth rest

def prettyMembers (depth : Nat) : List (String × Json) → Text
  | [] => []
  | [(key, j)] => indent depth ++ quoted key.toList ++ ": ".toList ++ prettyAt depth j
  | (key, j) :: rest =>
    indent depth ++ quoted key.toList ++ ": ".toList ++ prettyAt depth j ++ ',' :: prettyMembers depth rest

end

def pretty (j : Json) : Text := prettyAt 0 j

def strings (ss : List String) : Json := array (ss.map string)

def ofOption : Option String → Json
  | none => null
  | some s => string s

end Json
end Retouch
