import Retouch.Literal.Encode
import Retouch.Scan.Bracket
import Retouch.Scan.Name
import Retouch.Text.Quoted
import Retouch.Writer.Basic

/-! What is shown while the model thinks: a word from a list in its template, and a spinner that
plays its phases forwards and backwards. -/
namespace Retouch.Writer.Thinking

/-- The start of an assignment of the words. -/
def wordsStart : Text := "=\x7bwords:[".toList

/-- The object assigned at an offset, with the variable that it is assigned to. -/
def wordsAt? (t : Text) (assign : Nat) : Attempt (Option Site) := do
  match ← Scan.nameBefore? t assign with
  | none => return none
  | some (_, holder) =>
    let start := assign + 1
    let stop ← .orSkip (Scan.balancedEnd? t start 0x7B 0x7D) (.noMatch "verb object")
    return some (← .orSkip (Site.of? t start stop [holder]) (.emptyCapture "verb object" "0"))

def wordsSite (t : Text) : Attempt Site := do
  .orSkip (← (t.occurrences wordsStart).findSomeM? (wordsAt? t)) (.noMatch "verb object")

/-- A function that looks the words up elsewhere and falls back on the holder. -/
def getter (holder : Text) : Pattern :=
  .all [.text "function ", .nameGroup, .text "()\x7breturn ", .oneOrMore (.name []), .text "(\"",
    .anyNumber (.noneOf ['"']), .text "\",", .literal holder, .text ").words\x7d"]

/-- Replaces the words and lets the getter return them. -/
def planWords (settings : Settings) (t : Text) : Attempt (List Edit) := do
  let words := settings.words.verbs
  if words.isEmpty then .skip (.badSettings "thinking verb list is empty")
  let site ← wordsSite t
  let holder ← site.name "verb object" 0
  let getter ← Site.find t "verb getter" (getter holder)
  let name ← getter.name "verb getter" 0
  let body := "()\x7breturn ".toList ++ holder ++ ".words\x7d".toList
  return [.replace site (Json.object [("words", .strings words)]).compact,
    .replace getter ("function ".toList ++ name ++ body)]

/-- The template around a word, with an ellipsis as it is or escaped. -/
def wordTemplate : Pattern :=
  .all [.text "\x60$\x7b", .nameGroup, .text "\x7d", .any [.text "…", .text "\\u2026"],
    .text " \x60"]

def planTemplate (settings : Settings) (t : Text) : Attempt (List Edit) := do
  let format : Text := settings.words.format.toList
  let (before, after) ← .orSkip (format.splitOnce? placeholder) (.badSettings
    ("verb format " ++ String.ofList format.quoted ++ " has no \x7b\x7d placeholder"))
  let site ← Site.find t "verb format template" wordTemplate
  let word ← site.name "verb format template" 0
  let template := '\x60' :: Literal.encode .template before ++ "$\x7b".toList ++ word ++
    '\x7d' :: Literal.encode .template after ++ ['\x60']
  return [.replace site (inAlphabetOf (← site.text t) template)]

/-- How the function that returns the phases begins its list. -/
def phasesStart : Text := "return[\"·\",\"✢\"".toList

def plainFunction : Pattern := .all [.text "function ", .nameGroup, .text "()\x7b"]

/-- The function that returns the phases, with its name. -/
def phasesSite (t : Text) : Attempt Site := do
  let header ← Anchored.find t "spinner phases" phasesStart ⟨300, 0⟩ plainFunction
  let name ← header.capture t "spinner phases" 0
  let brace ← .demand header.found.span.last?
  let stop ← .orSkip ((Scan.balancedEnd? t brace 0x7B 0x7D).filter (header.anchor.stop ≤ ·))
    (.noMatch "spinner phases body")
  .orSkip (Site.of? t header.found.span.start stop [name]) (.emptyCapture "spinner phases" "0")

def planPhases (settings : Settings) (t : Text) : Attempt (List Edit) := do
  let phases := settings.spinner.phases
  if phases.isEmpty then .skip (.badSettings "spinner phase list is empty")
  let site ← phasesSite t
  let name ← site.name "spinner phases" 0
  let list := inAlphabetOf (← site.text t) (Json.strings phases).compact
  return [.replace site ("function ".toList ++ name ++ "()\x7breturn".toList ++ list ++ ['\x7d'])]

/-- An array with all its elements forwards and then backwards. -/
def backAndForth : Pattern :=
  .all [.text "[...", .nameGroup, .text ",...[...", .nameGroup, .text "].reverse()]"]

def planOneWay (settings : Settings) (t : Text) : Attempt (List Edit) := do
  require !settings.spinner.reversedCopy
  let site ← Site.findTwin t "spinner mirror" backAndForth
  let phases ← site.name "spinner mirror" 0
  return [.replace site ("[...".toList ++ phases ++ [']'])]

/-- The call that ends the timer of the spinner, right after its start. -/
def timerStop : Text := "clearInterval(".toList

/-- The end of the start of a timer, with the time between two phases. -/
def timerPeriod : Pattern := .all [.text "\x7d,", .capture (.oneOrMore .digit), .text ")"]

def planPeriod (settings : Settings) (t : Text) : Attempt (List Edit) := do
  let milliseconds := settings.spinner.period
  if milliseconds = 0 then .skip (.badSettings "spinner interval must be positive")
  let found ← Anchored.find t "spinner interval" timerStop ⟨300, 0⟩ timerPeriod
  let digits ← found.captureSpan "spinner interval" 0
  return [⟨digits.start, digits.stop, milliseconds.repr.toList⟩]

end Retouch.Writer.Thinking
