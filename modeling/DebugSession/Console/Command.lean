import DebugSession.Context
import DebugSession.Text.Blank

/-!
Console commands. What a line asks for depends on its words alone, except that a complaint repeats the
line as it was typed.
-/

namespace DebugSession.Console

inductive Command where
  | nothing
  | resume
  | restart (script : Option String)
  | quit
  | set (name value : String)
  | info
  | help
  | unknown (line : String)
  deriving DecidableEq, Repr

/-- The command that `words` spell; `line` is what they were cut from. -/
def Command.ofWords (line : String) : List String → Command
  | [] => .nothing
  | [word] =>
    if word = "c" ∨ word = "continue" then .resume
    else if word = "r" ∨ word = "restart" then .restart none
    else if word = "q" ∨ word = "quit" ∨ word = "exit" then .quit
    else if word = "i" ∨ word = "info" then .info
    else if word = "h" ∨ word = "help" then .help
    else .unknown line
  | [word, script] => if word = "r" ∨ word = "restart" then .restart (some script) else .unknown line
  | [word, name, value] => if word = "set" then .set name value else .unknown line
  | _ => .unknown line

def Command.ofLine (line : String) : Command := .ofWords (Text.trim line) (Text.words line)

/-- A switch is `on` or `off`, `true` or `false`, 1 or 0. -/
def readSwitch? (s : String) : Option Bool :=
  if s = "on" ∨ s = "true" ∨ s = "1" then some true
  else if s = "off" ∨ s = "false" ∨ s = "0" then some false
  else none

def switchText (b : Bool) : String := if b then "on" else "off"

end DebugSession.Console
