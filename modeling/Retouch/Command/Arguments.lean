import Retouch.Path

/-! The command line: a command, and the options that it knows. Options are given in any order, each
value after its option or after an equals sign. -/
namespace Retouch

inductive Coloring where
  | auto
  | always
  | never
  deriving DecidableEq, Repr

def Coloring.named? : String → Option Coloring
  | "auto" => some auto
  | "always" => some always
  | "never" => some never
  | _ => none

/-- What the options of a command say. A command reads those that it knows. -/
structure Options where
  target : Option Path
  searchPaths : List Path
  stateFolder : Option Path
  prompts : Option Path
  promptFolder : Option Path
  config : Option Path
  color : Option Coloring
  debug : Bool
  dryRun : Bool
  json : Bool
  deriving DecidableEq, Repr

def Options.none : Options := ⟨.none, [], .none, .none, .none, .none, .none, false, false, false⟩

inductive CommandName where
  | apply
  | restore
  | status
  | list
  deriving DecidableEq, Repr

namespace CommandName

def all : List CommandName := [apply, restore, status, list]

def text : CommandName → String
  | apply => "apply"
  | restore => "restore"
  | status => "status"
  | list => "list"

def named? (s : String) : Option CommandName := all.find? (·.text == s)

end CommandName

structure Command where
  name : CommandName
  options : Options
  deriving DecidableEq, Repr

/-- Why arguments are not run as a command. -/
inductive UsageStop where
  | missingCommand
  | unknownCommand
  | unknownArgument
  | invalidValue
  /-- An option that is given once is given again. -/
  | repeatedOption
  /-- A value for an option that takes none. -/
  | surplusValue
  | help
  | version
  deriving DecidableEq, Repr

namespace Command

abbrev Parsed := Except UsageStop

/-- An option is a flag, or it takes a value. -/
inductive OptionKind where
  | flag (isSet : Options → Bool) (set : Options → Options)
  | valued (add : Options → String → Parsed Options)

def path (value : String) : Parsed Path :=
  if value.isEmpty then .error .invalidValue else .ok ⟨value⟩

/-- An option whose value is given once. -/
def single {α : Type} (get : Options → Option α) (put : Options → α → Options)
    (read : String → Parsed α) : OptionKind :=
  .valued fun o value =>
    if (get o).isSome then .error .repeatedOption else return put o (← read value)

def singlePath (get : Options → Option Path) (put : Options → Path → Options) : OptionKind :=
  single get put path

def readColor (value : String) : Parsed Coloring :=
  match Coloring.named? value with
  | some c => .ok c
  | none => .error .invalidValue

def targetOptions : List (String × OptionKind) := [
  ("target", singlePath (·.target) fun o p => { o with target := some p }),
  ("search-path", .valued fun o value => do
    return { o with searchPaths := o.searchPaths ++ [← path value] }),
  ("state-dir", singlePath (·.stateFolder) fun o p => { o with stateFolder := some p }),
  ("debug", .flag (·.debug) fun o => { o with debug := true })]

def promptOptions : List (String × OptionKind) := [
  ("prompts", singlePath (·.prompts) fun o p => { o with prompts := some p }),
  ("prompt-dir", singlePath (·.promptFolder) fun o p => { o with promptFolder := some p })]

def applyOptions : List (String × OptionKind) := [
  ("config", singlePath (·.config) fun o p => { o with config := some p }),
  ("color", single (·.color) (fun o c => { o with color := some c }) readColor),
  ("dry-run", .flag (·.dryRun) fun o => { o with dryRun := true }),
  ("json", .flag (·.json) fun o => { o with json := true })]

/-- The options that a command knows. -/
def known : CommandName → List (String × OptionKind)
  | .apply => targetOptions ++ promptOptions ++ applyOptions
  | .restore => targetOptions
  | .status => targetOptions ++ promptOptions
  | .list => []

/-- Options so far, and the option whose value comes next. -/
structure Progress where
  options : Options
  waiting : Option (Options → String → Parsed Options)
  /-- The value that has come for the waiting option. -/
  value : Option String

namespace Progress

def start : Progress := ⟨.none, none, none⟩

/-- Settles the option that waits for its value. -/
def settle (p : Progress) : Parsed Options :=
  match p.waiting with
  | none => .ok p.options
  | some add =>
    match p.value with
    | none => .error .invalidValue
    | some v => add p.options v

end Progress

/-- The name and the attached value of an argument that starts with two dashes. -/
def long? (argument : String) : Option (String × Option String) :=
  match argument.toList with
  | '-' :: '-' :: rest =>
    match rest.dropWhile (· != '=') with
    | [] => some (String.ofList rest, none)
    | _ :: value => some (String.ofList (rest.takeWhile (· != '=')), some (String.ofList value))
  | _ => none

/-- The first letter of an argument that starts with one dash. -/
def short? (argument : String) : Option Char :=
  match argument.toList with
  | '-' :: c :: _ => if c = '-' then none else some c
  | _ => none

/-- An option that asks for the help or the version. -/
def stopFlag (p : Progress) (value : Option String) (stop : UsageStop) : Parsed Progress :=
  if value.isSome then .error .surplusValue
  else do
    let _ ← p.settle
    .error stop

def readLong (name : CommandName) (p : Progress) (option : String) (value : Option String) :
    Parsed Progress :=
  if option = "help" then stopFlag p value .help
  else
    match (known name).lookup option with
    | none => .error .unknownArgument
    | some (.flag isSet set) =>
      if value.isSome then .error .surplusValue
      else do
        let o ← p.settle
        if isSet o then .error .repeatedOption else return ⟨set o, none, none⟩
    | some (.valued add) => do
      let o ← p.settle
      match value with
      | some v => return ⟨← add o v, none, none⟩
      | none => return ⟨o, some add, none⟩

/-- One argument of a command. -/
def readArgument (name : CommandName) (p : Progress) (argument : String) : Parsed Progress :=
  match long? argument with
  | some (option, value) => readLong name p option value
  | none =>
    match short? argument with
    | some 'h' => stopFlag p none .help
    | some _ => .error .unknownArgument
    | none =>
      if p.waiting.isSome && p.value.isNone then return { p with value := some argument }
      else .error .unknownArgument

/-- The arguments of a command. After two dashes there may be none. -/
def readArguments (name : CommandName) : Progress → List String → Parsed Options
  | p, [] => p.settle
  | p, "--" :: rest => if rest.isEmpty then p.settle else .error .unknownArgument
  | p, argument :: rest => do readArguments name (← readArgument name p argument) rest

/-- What the arguments of the help command ask for. -/
def helpStop : List String → UsageStop
  | [] => .help
  | [name] => if name = "help" || (CommandName.named? name).isSome then .help else .unknownCommand
  | _ => .unknownCommand

/-- Arguments after two dashes in the place of a command. -/
def afterDashes : List String → UsageStop
  | [] => .missingCommand
  | name :: _ =>
    if name = "help" || (CommandName.named? name).isSome then .unknownArgument else .unknownCommand

/-- What an option before the command asks for. -/
def globalStop (argument : String) : Option UsageStop :=
  let asked (isKnown : Bool) (stop : UsageStop) (value : Option String) : UsageStop :=
    if !isKnown then .unknownArgument else if value.isSome then .surplusValue else stop
  match long? argument with
  | some (option, value) =>
    some (if option = "version" then asked true .version value
      else asked (option = "help") .help value)
  | none =>
    (short? argument).map fun c =>
      if c = 'h' then .help else if c = 'V' then .version else .unknownArgument

/-- The command that arguments give. -/
def ofArguments : List String → Parsed Command
  | [] => .error .missingCommand
  | "--" :: rest => .error (afterDashes rest)
  | "help" :: rest => .error (helpStop rest)
  | first :: rest =>
    match CommandName.named? first with
    | some name => return ⟨name, ← readArguments name .start rest⟩
    | none => .error ((globalStop first).getD .unknownCommand)

end Command
end Retouch
