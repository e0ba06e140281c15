import DebugSession.Files
import DebugSession.Text.Blank

/-!
Command files that a session runs before the first launch.
-/

namespace DebugSession

structure InitScript where
  path : Path
  commands : List String
  deriving DecidableEq, Repr

namespace InitScript

/-- Blank lines and lines that begin with `#` are no commands. -/
def isCommand (line : String) : Bool := line ≠ "" && !Text.startsWith line "#"

/-- The commands are the lines without the blanks around them. -/
def parse (path : Path) (content : String) : InitScript :=
  ⟨path, ((Text.lines content).map Text.trim).filter isCommand⟩

/-- A file that is not there is no script and no error. -/
def read (files : Files) (path : Path) : Except IoError (Option InitScript) :=
  match files.readText path with
  | .ok content => .ok (some (parse path content))
  | .error (.system .noEntry) => .ok none
  | .error e => .error e

/-- By canonical path, and by text as soon as one of the two has none. -/
def sameFile (files : Files) (p q : Path) : Bool :=
  match files.canonical? p, files.canonical? q with
  | some a, some b => a.sameText b
  | _, _ => p.sameText q

/-- The file in the working directory, then the one in the home directory unless it is the same. -/
def candidates (files : Files) (cwd : Path) (home : Option Path) (name : String) : List Path :=
  let here := cwd.join (.ofText name)
  match home.map (·.join (.ofText name)) with
  | some there => if sameFile files here there then [here] else [here, there]
  | none => [here]

end InitScript

end DebugSession
