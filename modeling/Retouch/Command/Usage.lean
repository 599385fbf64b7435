import Retouch.Command.Arguments

/-! What is said when arguments are not run as a command. -/
namespace Retouch

namespace Command

def programName : String := "minitweak"

def programVersion : String := "0.1.0"

/-- An option as it may be given. -/
def usageOfOption (name : String) : OptionKind → String
  | .flag _ _ => "[--" ++ name ++ "]"
  | .valued _ => "[--" ++ name ++ " <VALUE>]"

def usageOf (name : CommandName) : String :=
  " ".intercalate <|
    programName :: name.text :: (known name).map fun (option, kind) => usageOfOption option kind

/-- A line for each command. -/
def usage : List String := "Usage:" :: CommandName.all.map fun name => "  " ++ usageOf name

end Command
namespace UsageStop

/-- The user asked for these, so they are no failure. -/
def isAnswer : UsageStop → Bool
  | help | version => true
  | _ => false

/-- The lines that answer the arguments. -/
def lines : UsageStop → List String
  | help => Command.usage
  | version => [Command.programName ++ " " ++ Command.programVersion]
  | missingCommand => Command.usage
  | unknownCommand => "error: unrecognized subcommand" :: Command.usage
  | unknownArgument => "error: unexpected argument" :: Command.usage
  | invalidValue => "error: an option has no valid value" :: Command.usage
  | repeatedOption => "error: an option cannot be used multiple times" :: Command.usage
  | surplusValue => "error: an option takes no value" :: Command.usage

end UsageStop
end Retouch
