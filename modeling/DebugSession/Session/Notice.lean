import DebugSession.Context
import DebugSession.Duration

/-!
What a session itself shows, one text for each kind of notice.
-/

namespace DebugSession

inductive Notice where
  | banner (version : String)
  | help (text : String)
  | connecting (endpoint : Endpoint)
  | missingTarget
  | unreadableScript (path : Path) (e : IoError)
  | checkOutput (text : String)
  | checkTimedOut (target : Path) (after : Duration)
  | report (failure : RunFailure)
  deriving DecidableEq, Repr

/-- The message on a line of its own and each frame on a line behind a tab. -/
def RunFailure.report (f : RunFailure) : String :=
  f.message ++ "\n" ++ String.join (f.backtrace.map fun frame ↦ "\t" ++ frame ++ "\n")

def Notice.text : Notice → String
  | .banner version => "\n  Running stepline " ++ version ++ "\n\n"
  | .help text => text
  | .connecting endpoint => "Connecting to stepline server " ++ endpoint.text ++ "...\n"
  | .missingTarget => "You must specify a program to debug...\n"
  | .unreadableScript path e =>
    "Couldn't read init script " ++ path.text ++ ": " ++ e.message ++ "\n"
  | .checkOutput text => text
  | .checkTimedOut target after =>
    "Syntax check of " ++ target.text ++ " did not finish within " ++ after.text ++ "\n"
  | .report failure => failure.report

end DebugSession
