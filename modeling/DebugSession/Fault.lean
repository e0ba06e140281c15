import DebugSession.Endpoint

/-!
What can go wrong, by cause. Each cause has one message, and a cause that wraps another one lists the
messages of what it wraps, outermost first.
-/

namespace DebugSession

/-- A refusal by the operating system. -/
inductive Errno where
  | noEntry
  | badExecutable
  | noPermission
  | notADirectory
  | isADirectory
  | nameTooLong
  | tooManyLinks
  | networkUnreachable
  | timedOut
  | connectionRefused
  deriving DecidableEq, Repr

namespace Errno

def number : Errno → Nat
  | .noEntry => 2
  | .badExecutable => 8
  | .noPermission => 13
  | .notADirectory => 20
  | .isADirectory => 21
  | .nameTooLong => 36
  | .tooManyLinks => 40
  | .networkUnreachable => 101
  | .timedOut => 110
  | .connectionRefused => 111

def meaning : Errno → String
  | .noEntry => "No such file or directory"
  | .badExecutable => "Exec format error"
  | .noPermission => "Permission denied"
  | .notADirectory => "Not a directory"
  | .isADirectory => "Is a directory"
  | .nameTooLong => "File name too long"
  | .tooManyLinks => "Too many levels of symbolic links"
  | .networkUnreachable => "Network is unreachable"
  | .timedOut => "Connection timed out"
  | .connectionRefused => "Connection refused"

end Errno

/-- Why a file, a stream, a connection or a child could not be used. -/
inductive IoError where
  | system (e : Errno)
  | notUtf8
  | emptyPath
  | nulInArgument
  | nulInPath
  | zeroTimeout
  | refused
  | sinkFull
  deriving DecidableEq, Repr

def IoError.message : IoError → String
  | .system e => e.meaning ++ " (os error " ++ Decimal.text e.number ++ ")"
  | .notUtf8 => "stream did not contain valid UTF-8"
  | .emptyPath => "cannot make an empty path absolute"
  | .nulInArgument => "nul byte found in provided data"
  | .nulInPath => "file name contained an unexpected NUL byte"
  | .zeroTimeout => "cannot set a 0 duration timeout"
  | .refused => "connection refused"
  | .sinkFull => "sink is full"

/-- What can go wrong before and around a session: files, configuration, helper programs. -/
inductive SetupError where
  | io (e : IoError)
  | config (text : String)
  | spawn (program : String) (e : IoError)
  deriving DecidableEq, Repr

namespace SetupError

def message : SetupError → String
  | .io e => "IO error: " ++ e.message
  | .config text => "Configuration error: " ++ text
  | .spawn program e => "Failed to start '" ++ program ++ "': " ++ e.message

def wrapped : SetupError → List String
  | .io e => [e.message]
  | .config _ => []
  | .spawn _ e => [e.message]

end SetupError

/-- Why the engine could not run a script. -/
inductive EngineError where
  | notStarted
  | cannotStart (program : String) (e : IoError)
  | other (text : String)
  deriving DecidableEq, Repr

def EngineError.text : EngineError → String
  | .notStarted => "debug_load called before start"
  | .cannotStart program e => "failed to start '" ++ program ++ "': " ++ e.message
  | .other text => text

/-- What ends a session early. -/
inductive Fault where
  | setup (e : SetupError)
  | badEndpoint (e : EndpointError)
  | unknownSetting (name : String)
  | io (e : IoError)
  | connect (endpoint : Endpoint) (e : IoError)
  | engine (e : EngineError)
  deriving DecidableEq, Repr

def unknownSettingMessage (name : String) : String := "Unknown setting: " ++ name

namespace Fault

def message : Fault → String
  | .setup e => e.message
  | .badEndpoint e => e.message
  | .unknownSetting name => unknownSettingMessage name
  | .io e => "IO error: " ++ e.message
  | .connect endpoint e =>
    "Could not connect to debugger server " ++ endpoint.text ++ ": " ++ e.message
  | .engine e => "Engine error: " ++ e.text

def wrapped : Fault → List String
  | .setup e => e.message :: e.wrapped
  | .badEndpoint e => [e.message]
  | .unknownSetting name => [unknownSettingMessage name]
  | .io e => [e.message]
  | .connect _ e => [e.message]
  | .engine _ => []

end Fault

end DebugSession
