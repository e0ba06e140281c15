import DebugSession.Console.Command
import DebugSession.Log.Event
import DebugSession.Path.Absolute

/-!
What a console answers to one command: the texts it shows, the context it leaves, and whether the
command session ends. Nothing here knows about colour or about the output.
-/

namespace DebugSession.Console

inductive Piece where
  | prompt
  | complaint (text : String)
  | plain (text : String)
  deriving DecidableEq, Repr

def promptText : String := "(stepline) "

def bold (s : String) : String := "\x1b[1m" ++ s ++ "\x1b[0m"

def red (s : String) : String := "\x1b[31m" ++ s ++ "\x1b[39m"

/-- With colour the prompt is bold and a complaint red, its newline not included. -/
def Piece.text (color : Bool) : Piece → String
  | .prompt => if color then bold promptText else promptText
  | .complaint text => (if color then red ("*** " ++ text) else "*** " ++ text) ++ "\n"
  | .plain text => text

def helpText : String :=
  "Commands:\n" ++
  "  c, continue             run the script again\n" ++
  "  r, restart [script]     run again, optionally switching to another script\n" ++
  "  q, quit, exit           leave the debugger\n" ++
  "  set <setting> on|off    change post_mortem or linetrace\n" ++
  "  i, info                 show the current script and settings\n" ++
  "  h, help                 show this list\n"

/-- The script, its arguments if it has any, and the settings. -/
def infoText (ctx : Context) : String :=
  "Script: " ++ ctx.target.text ++ "\n" ++
  (if ctx.scriptArgs = [] then ""
    else "Arguments: " ++ " ".intercalate ctx.scriptArgs ++ "\n") ++
  String.join (Setting.all.map fun s ↦
    s.name ++ ": " ++ switchText (ctx.settings.get s) ++ "\n")

structure Reply where
  context : Context
  pieces : List Piece := []
  /-- `none` keeps the command session going. -/
  signal : Option Signal := none
  events : List Event := []
  deriving DecidableEq, Repr

/-- A command fails only when it names a script and there is no current directory. -/
def Command.perform (cwd : Except IoError Path) (ctx : Context) : Command → Except Fault Reply
  | .nothing => .ok { context := ctx }
  | .resume => .ok { context := ctx, signal := some .resume }
  | .restart none => .ok { context := ctx, signal := some .restart }
  | .restart (some script) =>
    match Path.absolute cwd (.ofText script) with
    | .error e => .error (.setup (.io e))
    | .ok path => .ok {
        context := { ctx with target := path }
        signal := some .restart
        events := [.targetSwitched ctx.target path] }
  | .quit => .ok { context := ctx, signal := some .quit }
  | .set name value =>
    match Setting.ofName? name with
    | none => .ok { context := ctx, pieces := [.complaint (unknownSettingMessage name)] }
    | some setting =>
      match readSwitch? value with
      | none =>
        let text := "Expected on or off, got \"" ++ value ++ "\""
        .ok { context := ctx, pieces := [.complaint text] }
      | some on => .ok {
          context := { ctx with settings := ctx.settings.set setting on }
          pieces := [.plain (setting.name ++ " is " ++ switchText on ++ "\n")] }
  | .info => .ok { context := ctx, pieces := [.plain (infoText ctx)] }
  | .help => .ok { context := ctx, pieces := [.plain helpText] }
  | .unknown line =>
    let text := "Unknown command: \"" ++ line ++ "\". Try \"help\""
    .ok { context := ctx, pieces := [.complaint text] }

end DebugSession.Console
