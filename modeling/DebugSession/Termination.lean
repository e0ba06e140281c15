import DebugSession.Text.Decimal

/-!
How a session ends when nothing goes wrong with it, and the exit status that tells so.
-/

namespace DebugSession

inductive Termination where
  | version
  | help
  | remoteClosed
  | missingTarget
  | checkFailed (status : Int)
  | checkTimedOut
  | quit
  deriving DecidableEq, Repr

namespace Termination

def exitCode : Termination → Int
  | .version => 0
  | .help => 0
  | .remoteClosed => 0
  | .quit => 0
  | .missingTarget => 1
  | .checkTimedOut => 1
  | .checkFailed status => status

def name : Termination → String
  | .version => "Version"
  | .help => "Help"
  | .remoteClosed => "RemoteClosed"
  | .missingTarget => "MissingTarget"
  | .checkFailed _ => "SyntaxError"
  | .checkTimedOut => "ValidationTimedOut"
  | .quit => "Quit"

/-- The name, and the status where there is one. -/
def detail (t : Termination) : String :=
  match t with
  | .checkFailed status => t.name ++ " \x7b status: " ++ Decimal.intText status ++ " \x7d"
  | _ => t.name

end Termination

end DebugSession
