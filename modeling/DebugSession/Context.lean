import DebugSession.Fault
import DebugSession.Path.Basic

/-!
What a session keeps between runs: the script, how it is traced, and its arguments.
-/

namespace DebugSession

inductive Setting where
  | postMortem
  | linetrace
  deriving DecidableEq, Repr

namespace Setting

def all : List Setting := [.postMortem, .linetrace]

def name : Setting → String
  | .postMortem => "post_mortem"
  | .linetrace => "linetrace"

/-- `post_mortem` may be written with a hyphen. -/
def ofName? (s : String) : Option Setting :=
  if s = "post_mortem" ∨ s = "post-mortem" then some .postMortem
  else if s = "linetrace" then some .linetrace
  else none

end Setting

structure Settings where
  postMortem : Bool := false
  linetrace : Bool := false
  deriving DecidableEq, Repr

namespace Settings

def get (s : Settings) : Setting → Bool
  | .postMortem => s.postMortem
  | .linetrace => s.linetrace

def set (s : Settings) (name : Setting) (value : Bool) : Settings :=
  match name with
  | .postMortem => { s with postMortem := value }
  | .linetrace => { s with linetrace := value }

end Settings

structure Context where
  target : Path
  settings : Settings := {}
  scriptArgs : List String := []
  deriving DecidableEq, Repr

/-- How a command session ends. -/
inductive Signal where
  | resume
  | restart
  | quit
  deriving DecidableEq, Repr

def Signal.name : Signal → String
  | .resume => "Continue"
  | .restart => "Restart"
  | .quit => "Quit"

/-- An abnormal end of a run. -/
structure RunFailure where
  message : String
  backtrace : List String := []
  deriving DecidableEq, Repr

inductive RunResult where
  | completed
  | failed (failure : RunFailure)
  deriving DecidableEq, Repr

namespace RunResult

def failure? : RunResult → Option RunFailure
  | .completed => none
  | .failed failure => some failure

def ofFailure? : Option RunFailure → RunResult
  | none => .completed
  | some failure => .failed failure

def isFailure (r : RunResult) : Bool := r.failure?.isSome

end RunResult

end DebugSession
