import Retouch.Scan.Bracket
import Retouch.Writer.Basic

/-! Themes: the switch that looks colors up, the options of the picker, and the names by id. All
three are changed together or not at all. -/
namespace Retouch.Writer.Palette

/-- The head of the switch, up to the colors of its first theme. -/
def switchHead : Pattern :=
  .all [.text "switch(", .nameGroup, .text ")\x7bcase\"light\":return "]

def switchSite (t : Text) : Attempt Site := do
  let head ← Site.find t "theme switch" switchHead
  let brace ← .orSkip ((← head.text t).find? ['\x7b']) (.emptyCapture "theme switch" "0")
  let stop ← .orSkip (Scan.balancedEnd? t (head.span.start + brace) 0x7B 0x7D)
    (.noMatch "theme switch body")
  .orSkip (Site.of? t head.span.start stop head.names) (.emptyCapture "theme switch" "0")

/-- The option of the picker that every bundle has. -/
def darkOption : Text := "\x7blabel:\"Dark mode\",value:\"dark\"\x7d".toList

/-- How far before that option its array may open, in bytes. -/
def pickerReach : Nat := 2000

def pickerSite (t : Text) : Attempt Site := do
  let option ← .orSkip (t.find? darkOption) (.noMatch "theme options")
  let start ← .orSkip (← Scan.lastByte? t option 0x5B pickerReach) (.noMatch "theme options array")
  let stop ← .orSkip ((Scan.balancedEnd? t start 0x5B 0x5D).filter (option < ·))
    (.noMatch "theme options array")
  .orSkip (Site.of? t start stop []) (.emptyCapture "theme options" "0")

/-- The member of the names that every bundle has. -/
def darkName : Text := "dark:\"Dark mode\"".toList

/-- How far before that member its object may open, in bytes. -/
def namesReach : Nat := 500

/-- The object around an occurrence of the member, unless it is no member of one. -/
def namesAround? (t : Text) (place : Nat) : Attempt (Option Span) := do
  let before ← Scan.byteBefore? t place
  return if before = some 0x7B || before = some 0x2C then do
      let start ← Scan.enclosingOpener? t place 0x7B 0x7D namesReach
      let stop ← (Scan.balancedEnd? t start 0x7B 0x7D).filter (place + darkName.size ≤ ·)
      return ⟨start, stop⟩
    else none

def namesSite (t : Text) : Attempt Site := do
  let span ← .orSkip (← (t.occurrences darkName).findSomeM? (namesAround? t))
    (.noMatch "theme name map")
  .orSkip (Site.of? t span.start span.stop []) (.emptyCapture "theme name map" "0")

def colorsOf (theme : Theme) : Text :=
  (Json.object (theme.colors.entries.map fun (k, v) => (k, .string v))).compact

def caseOf (theme : Theme) : Text :=
  "case".toList ++ quoted theme.id ++ ":return ".toList ++ colorsOf theme ++ [';']

/-- A case for each theme; the first theme stands in for any other id. -/
def switchOf (selector : Text) (themes : List Theme) : Text :=
  "switch(".toList ++ selector ++ ")\x7b".toList ++ themes.flatMap caseOf ++
    (themes.head?.map fun first => "default:return ".toList ++ colorsOf first).getD [] ++ ['\x7d']

def pickerOf (themes : List Theme) : Text :=
  (Json.array (themes.map fun theme =>
    .object [("label", .string theme.name), ("value", .string theme.id)])).compact

/-- Names by id; of several themes with one id the last counts. -/
def namesOf (themes : List Theme) : Text :=
  let names : SortedMap String String := .ofList (themes.map fun theme => (theme.id, theme.name))
  (Json.object (names.entries.map fun (k, v) => (k, .string v))).compact

def plan (settings : Settings) (t : Text) : Attempt (List Edit) := do
  let themes := settings.themes
  require !themes.isEmpty
  let switch ← switchSite t
  let picker ← pickerSite t
  let names ← namesSite t
  let selector ← switch.name "theme switch" 0
  return [.replace switch (switchOf selector themes), .replace picker (pickerOf themes),
    .replace names (namesOf themes)]

end Retouch.Writer.Palette
