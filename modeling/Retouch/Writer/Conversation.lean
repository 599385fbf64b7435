import Retouch.Text.Quoted
import Retouch.Writer.Basic

/-! The user's side of the conversation: the element that shows a message, with its colors, text
styles, format and box, and the border of the box that takes the input. -/
namespace Retouch.Writer.Conversation

/-- A color that only the messages of the user have. -/
def messageColor : Text := "\"userMessageBackground\"".toList

def messageElement : Pattern :=
  .all [.nameGroup, .text ".createElement(", .nameGroup, .text ",\x7b",
    .capture (.anyNumber (.noneOf ['\x7b', '\x7d'])), .text "\x7d,\"> \",",
    .capture (.oneOrMore (.name ['.'])), .text ")"]

/-- The element around a message, which is laid out as a row. -/
def rowElement : Pattern :=
  .all [.text ".createElement(", .nameGroup, .text ",\x7bflexDirection:\"row\""]

/-- The value of a property in a list of properties. -/
def valueOf? (properties : Text) (key : Text) : Option Text :=
  (Text.splitAll properties (· == ',')).findSome? fun pair => do
    let (name, value) ← Text.splitOnce? pair [':']
    if Text.trim name = key then some (Text.trim value) else none

def property (name : String) (value : Text) : Text := name.toList ++ ':' :: value

/-- A color: its value in the bundle if it is to stay the same, else the color itself. -/
def colorProperty (name : String) (color : String) (present : Text) : List Text :=
  if color = sameColor then ((valueOf? present name.toList).map (property name)).toList
  else [property name (quoted color)]

/-- Color, background color, then text styles. -/
def textProperties (look : MessageLook) (present : Text) : List Text :=
  colorProperty "color" look.foregroundColor present ++
    (look.backgroundColor.map fun c => colorProperty "backgroundColor" c present).getD [] ++
    (Emphasis.all.filter look.emphasis.contains).map fun e => property e.name "!0".toList

def boxProperties (look : MessageLook) : List Text :=
  (if look.border = .none then []
    else property "borderStyle" (quoted look.border.name) ::
      (look.borderColor.map fun color => property "borderColor" (quoted color)).toList) ++
    (if 0 < look.paddingX then [property "paddingX" look.paddingX.repr.toList] else []) ++
    (if 0 < look.paddingY then [property "paddingY" look.paddingY.repr.toList] else []) ++
    if look.isFitted then [property "alignSelf" (quoted "flex-start")] else []

/-- A call that creates an element. -/
def createElement (library component : Text) (properties children : List Text) : Text :=
  library ++ ".createElement(".toList ++ component ++ ",\x7b".toList ++ Text.join [','] properties ++
    "\x7d,".toList ++ Text.join [','] children ++ [')']

/-- Fixed text as a child, if there is any. -/
def fixedChild (t : Text) : List Text := if t.isEmpty then [] else [quoted (String.ofList t)]

/-- An element in a box, if one is asked for. -/
def boxed (look : MessageLook) (t library element : Text) : Attempt Text := do
  if !look.isBoxed then return element
  let row ← Anchored.find t "user message box" messageColor ⟨600, 0⟩ rowElement
  let box ← row.capture t "user message box" 0
  return createElement library box (boxProperties look) [element]

def planMessage (settings : Settings) (t : Text) : Attempt (List Edit) := do
  let look := settings.message
  let format : Text := look.format.toList
  let (before, after) ← .orSkip (format.splitOnce? placeholder) (.badSettings
    ("message format " ++ String.ofList format.quoted ++ " has no \x7b\x7d placeholder"))
  let found ← Anchored.find t "user message text" messageColor ⟨200, 200⟩ messageElement
  let library ← found.capture t "user message text" 0
  let component ← found.capture t "user message text" 1
  let present ← found.capture t "user message text" 2
  let message ← found.capture t "user message text" 3
  let element ← boxed look t library (createElement library component (textProperties look present)
    (fixedChild before ++ message :: fixedChild after))
  let span := found.found.span
  let replaced ← .demand (t.slice? span.start span.stop)
  return [⟨span.start, span.stop, inAlphabetOf replaced element⟩]

/-- The borders that only the box for the input has. -/
def inputBorders : Text := "borderLeft:!1,borderRight:!1,borderBottom:!0".toList

def borderValue : Pattern :=
  .all [.text "borderStyle:", .capture (.all [.text "\"", .oneOrMore .word, .text "\""])]

def planBorder (settings : Settings) (t : Text) : Attempt (List Edit) := do
  require settings.input.removeBorder
  let found ← Anchored.find t "input box border" inputBorders ⟨300, 0⟩ borderValue
  let value ← found.captureSpan "input box border" 0
  return [⟨value.start, value.stop, "undefined".toList⟩]

end Retouch.Writer.Conversation
