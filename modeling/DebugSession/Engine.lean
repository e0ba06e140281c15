import DebugSession.Config
import DebugSession.Context
import DebugSession.Text.Blank

/-!
The engine that hands scripts to an interpreter: what it passes to the child, and what it makes of the
way the child ends.
-/

namespace DebugSession

structure Engine where
  program : String
  runArgs : List String
  started : Bool := false
  deriving DecidableEq, Repr

namespace Engine

def ofConfig (c : Config) : Engine := { program := c.interpreter, runArgs := c.runArgs }

/-- Arguments of the interpreter: its own ones, the script, and those of the script. -/
def arguments (e : Engine) (ctx : Context) : List Bytes :=
  e.runArgs.map Utf8.encode ++ ctx.target.bytes :: ctx.scriptArgs.map Utf8.encode

def flagText (b : Bool) : String := if b then "1" else "0"

/-- The session settings travel to the child as environment variables. -/
def vars (ctx : Context) (stop : Bool) : List (String × Bytes) := [
  ("STEPLINE_SCRIPT", ctx.target.bytes),
  ("STEPLINE_STOP", Utf8.encode (flagText stop)),
  ("STEPLINE_POST_MORTEM", Utf8.encode (flagText ctx.settings.postMortem)),
  ("STEPLINE_LINETRACE", Utf8.encode (flagText ctx.settings.linetrace))]

/-- The lines of a text that have something on them, without the blanks around it. -/
def speakingLines (text : String) : List String :=
  ((Text.lines text).map Text.trim).filter (· ≠ "")

def silentMessage (script : Path) : ChildEnd → String
  | .exited status => script.text ++ " exited with status " ++ Decimal.text status.toNat
  | .killed _ => script.text ++ " was terminated by a signal"

/-- The first line that the child said on its error channel is the message and the others are the
backtrace. A child that said nothing gets a message about how it ended. -/
def failureOf (said : String) (script : Path) (e : ChildEnd) : RunFailure :=
  match speakingLines said with
  | message :: backtrace => ⟨message, backtrace⟩
  | [] => ⟨silentMessage script e, []⟩

end Engine

end DebugSession
