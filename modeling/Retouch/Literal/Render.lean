import Retouch.Literal.Encode
import Retouch.Literal.Segment
import Retouch.Pattern.Replace
import Retouch.SortedMap

/-! Content written for a place in the source: text is encoded for the style there, variables take
the identifiers captured for them, and holes become template holes or concatenations. -/
namespace Retouch.Literal

/-- Identifiers by variable name. -/
abbrev Identifiers := SortedMap Text Text

def insertBySize (name : Text) : List Text → List Text
  | [] => [name]
  | n :: rest => if n.size ≤ name.size then name :: n :: rest else n :: insertBySize name rest

/-- Names with the longest first; those of one size keep their order. -/
def longestFirst (names : List Text) : List Text := names.foldr insertBySize []

/-- Whole words that are variable names, long names before short ones. -/
def variablePattern (names : List Text) : Pattern :=
  .all [.wordEdge, .any ((longestFirst names).map .literal), .wordEdge]

/-- The expression with identifiers in the place of variable names. -/
def substitute (identifiers : Identifiers) (expr : Text) : Text :=
  if identifiers.isEmpty then expr
  else
    (variablePattern identifiers.keys).replaceAll (fun name => (identifiers.get? name).getD name) expr

/-- A hole that holds an expression, in a literal of the style. -/
def renderHole (style : Style) (expr : Text) : Text :=
  match style with
  | .plain | .template => '$' :: '\x7b' :: expr ++ ['\x7d']
  | .double => "\"+(".toList ++ expr ++ ")+\"".toList
  | .single => "'+(".toList ++ expr ++ ")+'".toList

def renderSegment (content : Text) (style : Style) (identifiers : Identifiers) :
    Segment → Attempt Text
  | .text t => .ok (encode style t)
  | .hole expr offset =>
    let written := renderHole style (substitute identifiers expr)
    match style.quote? with
    | none => .ok written
    | some d =>
      match expr.find? [d] with
      | some pos => .skip (Segment.unescaped content (offset + pos) (String.ofList [d]))
      | none => .ok written

/-- The content as it stands in a literal of the style, all ASCII if `escaped`. -/
def render (content : Text) (style : Style) (identifiers : Identifiers) (escaped : Bool) :
    Attempt Text := do
  let pieces ← (← Segment.split content).mapM (renderSegment content style identifiers)
  return if escaped then toAscii pieces.flatten else pieces.flatten

end Retouch.Literal
