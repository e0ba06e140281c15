import DebugSession.Log.Event
import DebugSession.Options

/-!
The options of the command line: their names, their values and what the help says about them.
-/

namespace DebugSession.CommandLine

inductive Flag where
  | version
  | help
  | quit
  | rc
  | postMortem
  | trace
  | noStop
  deriving DecidableEq, Repr

/-- Options that take values. -/
inductive Slot where
  | remote
  | config
  | logLevel
  deriving DecidableEq, Repr

inductive Kind where
  | flag (f : Flag)
  | slot (s : Slot)
  deriving DecidableEq, Repr

structure OptionName where
  kind : Kind
  short : Option Char
  long : String
  /-- How the help writes the values, with the blank in front. -/
  values : String := ""
  about : String

/-- In the order of the help. -/
def optionNames : List OptionName := [
  { kind := .flag .version, short := some 'v', long := "version"
    about := "Print the version banner and exit" },
  { kind := .flag .help, short := some 'h', long := "help"
    about := "Print this help and exit" },
  { kind := .slot .remote, short := some 'R', long := "remote", values := " <HOST> [PORT]"
    about := "Debug a program running elsewhere instead of a local script" },
  { kind := .flag .quit, short := some 'q', long := "quit"
    about := "Run the script once, then exit instead of starting over" },
  { kind := .flag .rc, short := some 'x', long := "rc"
    about := "Run commands from .steplinerc before the first run" },
  { kind := .flag .postMortem, short := some 'm', long := "post-mortem"
    about := "Stay attached after an unhandled failure" },
  { kind := .flag .trace, short := some 't', long := "trace"
    about := "Print every line as it executes" },
  { kind := .flag .noStop, short := some 'n', long := "no-stop"
    about := "Do not halt at the first line" },
  { kind := .slot .config, short := none, long := "config", values := " <PATH>"
    about := "Config file (defaults to $STEPLINE_CONFIG, then the user config dir)" },
  { kind := .slot .logLevel, short := none, long := "log-level", values := " <LOG_LEVEL>"
    about := "[default: " ++ LogLevel.warn.name ++ "] [possible values: " ++
      ", ".intercalate (LogLevel.all.map LogLevel.name) ++ "]" }]

def ofShort? (c : Char) : Option Kind :=
  (optionNames.find? (·.short = some c)).map (·.kind)

def ofLong? (name : String) : Option Kind :=
  (optionNames.find? (·.long = name)).map (·.kind)

/-- How many values an option takes at most when they are arguments of their own. -/
def Slot.most : Slot → Nat
  | .remote => 2
  | .config => 1
  | .logLevel => 1

/-- A command line that was understood. -/
structure Invocation where
  options : DebugSession.Options := {}
  config : Option String := none
  logLevel : LogLevel := .warn
  deriving DecidableEq, Repr

inductive UsageError where
  | unknownArgument
  | invalidValue
  | argumentConflict
  | tooManyValues
  deriving DecidableEq, Repr

def UsageError.name : UsageError → String
  | .unknownArgument => "UnknownArgument"
  | .invalidValue => "InvalidValue"
  | .argumentConflict => "ArgumentConflict"
  | .tooManyValues => "TooManyValues"

/-- The exit status of a command line that was not understood. -/
def usageStatus : Int := 2

end DebugSession.CommandLine
