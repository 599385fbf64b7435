import Retouch.Scan.Bracket
import Retouch.Text.Quoted
import Retouch.Writer.Basic

/-! What the bundle does on its own: how large it takes the context window to be, what it says, what
it offers, and how it waits. -/
namespace Retouch.Writer.Behavior

/-- The end of the function that tells the size of the context window. -/
def sizeReturn : Text := "return 200000\x7d".toList

/-- How far before its end that function may start, in bytes. -/
def sizeReach : Nat := 400

/-- The head of a function of at most one parameter. -/
def smallFunction : Pattern :=
  .all [.text "function ", .oneOrMore (.name []), .text "(", .anyNumber (.name []), .text ")\x7b"]

/-- An ASCII letter or underscore, then ASCII letters, digits and underscores. -/
def isVariableName (name : Text) : Bool :=
  match name with
  | [] => false
  | c :: rest => (c.isAlpha || c == '_') && rest.all fun c => c.isAlphanum || c == '_'

/-- Offset after the last head of a function before `stop`, if no brace stands between them. -/
def bodyBefore? (t : Text) (stop : Nat) : Attempt (Option Nat) := do
  let low := t.boundaryBefore (stop - sizeReach)
  let window ← .demand (t.slice? low stop)
  match (smallFunction.matchesIn window).getLast? with
  | none => return none
  | some head =>
    let bodyStart := low + head.span.stop
    let between ← Attempt.demand (t.slice? bodyStart stop)
    return if between.any fun c => c == '\x7b' || c == '\x7d' then none else some bodyStart

/-- Offset just inside the first small function whose body is the known size alone. -/
def sizeBody? (t : Text) : Attempt (Option Nat) :=
  (t.occurrences sizeReturn).findSomeM? (bodyBefore? t)

/-- A statement that returns the value of a variable that is set. -/
def returnVariable (name : Text) : Text :=
  "if(process.env.".toList ++ name ++ ")return Number(process.env.".toList ++ name ++ ");".toList

/-- Lets an environment variable give the size of the context window. -/
def planContextSize (settings : Settings) (t : Text) : Attempt (List Edit) := do
  require settings.extras.contextOverride
  let name : Text := settings.extras.contextVariable.toList
  if !isVariableName name then
    .skip (.badSettings
      (String.ofList name.quoted ++ " is not a valid environment variable name"))
  let bodyStart ← .orSkip (← sizeBody? t) (.noMatch "context limit function")
  return [.insert bodyStart (returnVariable name)]

def verboseKey : Text := "verbose:".toList

def verboseLookup : Pattern :=
  .all [.literal verboseKey,
    .capture (.all [.oneOrMore (.name []), .text "().verbose"]), .wordEdge]

/-- Puts a constant in the place of the look-up of the verbose setting. -/
def planVerbosity (settings : Settings) (t : Text) : Attempt (List Edit) := do
  require settings.extras.alwaysVerbose
  let site ← Site.find t "verbose setting" verboseLookup
  return [⟨site.span.start + verboseKey.size, site.span.stop, "!0".toList⟩]

def limitCommand : Text := "name:\"rate-limit-options\"".toList

def enabledKey : Pattern := .all [.wordEdge, .text "isEnabled:"]

/-- Lets the command with the rate limit options be disabled at all times. -/
def planLimitCommand (settings : Settings) (t : Text) : Attempt (List Edit) := do
  require settings.extras.noLimitOptions
  let found ← Anchored.find t "rate limit command" limitCommand ⟨300, 300⟩ enabledKey
  let start := found.found.span.stop
  let stop ← .orSkip ((Scan.expressionEnd? t start).filter (start < ·))
    (.emptyCapture "rate limit command" "isEnabled")
  return [⟨start, stop, "()=>!1".toList⟩]

def greeting : Text := "Welcome to ".toList

/-- The head of a function with its name. -/
def namedFunction : Pattern :=
  .all [.text "function ", .nameGroup, .text "(", .anyNumber (.name [',']), .text ")\x7b"]

/-- Lets the function that greets at the start return at once. -/
def planGreeting (settings : Settings) (t : Text) : Attempt (List Edit) := do
  require settings.extras.noGreeting
  let found ← Anchored.find t "startup banner" greeting ⟨2000, 0⟩ namedFunction
  if found.anchor.start < found.found.span.stop then .skip (.noMatch "startup banner")
  return [.insert found.found.span.stop "return null;".toList]

/-- A loop that waits without letting anything else run. -/
def waitLoop : Pattern := .all [.text "while(Date.now()<", .nameGroup, .text ")\x7b\x7d"]

def planWaiting (settings : Settings) (t : Text) : Attempt (List Edit) := do
  require settings.extras.noBusyWait
  return [.delete (← Site.find t "busy wait" waitLoop)]

end Retouch.Writer.Behavior
