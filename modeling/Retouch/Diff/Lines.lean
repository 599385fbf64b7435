import Retouch.Diff.Script

/-! Line diffs of prose: changed lines with a few lines of context around them. -/
namespace Retouch.Diff

/-- Lines with their ends: a carriage return, a line feed, or one after the other. -/
def linesWithEnds (t : Text) : List Text := go [] t
where
  go (line : Text) : Text → List Text
    | [] => if line.isEmpty then [] else [line.reverse]
    | '\r' :: '\n' :: t => ('\n' :: '\r' :: line).reverse :: go [] t
    | '\r' :: t => ('\r' :: line).reverse :: go [] t
    | '\n' :: t => ('\n' :: line).reverse :: go [] t
    | c :: t => go (c :: line) t

/-- Kept lines, or lines that others take the place of. -/
inductive Block where
  | keep (lines : List Text)
  | change (dropped added : List Text)
  deriving DecidableEq, Repr

/-- Neighbouring steps joined: runs of kept lines, and between them all that is dropped and all
that is added. -/
def blocks : List Step → List Block
  | [] => []
  | step :: steps =>
    match step, blocks steps with
    | .keep line, .keep lines :: rest => .keep (line :: lines) :: rest
    | .keep line, rest => .keep [line] :: rest
    | .drop lines, .change dropped added :: rest => .change (lines ++ dropped) added :: rest
    | .drop lines, rest => .change lines [] :: rest
    | .add lines, .change dropped added :: rest => .change dropped (lines ++ added) :: rest
    | .add lines, rest => .change [] lines :: rest

/-- Cuts kept lines at the head down to the context. -/
def trimFirst (context : Nat) : List Block → List Block
  | .keep lines :: rest => .keep (lines.drop (lines.length - context)) :: rest
  | bs => bs

/-- Cuts kept lines at the end down to the context. -/
def trimLast (context : Nat) : List Block → List Block
  | [] => []
  | [.keep lines] => [.keep (lines.take context)]
  | b :: rest => b :: trimLast context rest

/-- Splits blocks where more is kept than the context on both sides covers. -/
def splitGroups (context : Nat) (group : List Block) : List Block → List (List Block)
  | [] =>
    match group with
    | [] | [.keep _] => []
    | _ => [group.reverse]
  | b :: rest =>
    match b with
    | .keep lines =>
      if 2 * context < lines.length then
        (Block.keep (lines.take context) :: group).reverse ::
          splitGroups context [.keep (lines.drop (lines.length - context))] rest
      else splitGroups context (b :: group) rest
    | .change .. => splitGroups context (b :: group) rest

def groups (context : Nat) (bs : List Block) : List (List Block) :=
  splitGroups context [] (trimLast context (trimFirst context bs))

def renderLine (sign : String) (line : Text) : Text :=
  let ended := line.getLast?.any fun c => c == '\n' || c == '\r'
  sign.toList ++ line ++ (if ended then [] else ['\n'])

def Block.render : Block → Text
  | keep lines => lines.flatMap (renderLine "  ")
  | change dropped added => dropped.flatMap (renderLine "- ") ++ added.flatMap (renderLine "+ ")

/-- The changed lines of a text with `context` lines around each change. -/
def lines (old new : Text) (context : Nat) : Text :=
  let bs := blocks (script (linesWithEnds old) (linesWithEnds new))
  Text.join "...\n".toList ((groups context bs).map (·.flatMap Block.render))

end Retouch.Diff
