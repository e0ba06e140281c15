import DebugSession.Context
import DebugSession.Termination
import DebugSession.Text.Quoted
import DebugSession.Verdict

/-!
What a session tells its log: each event has a level, the part of the debugger it comes from, and a
line of text.
-/

namespace DebugSession

inductive LogLevel where
  | error
  | warn
  | info
  | debug
  | trace
  deriving DecidableEq, Repr

namespace LogLevel

def all : List LogLevel := [.error, .warn, .info, .debug, .trace]

def rank : LogLevel → Nat
  | .error => 1
  | .warn => 2
  | .info => 3
  | .debug => 4
  | .trace => 5

def name : LogLevel → String
  | .error => "error"
  | .warn => "warn"
  | .info => "info"
  | .debug => "debug"
  | .trace => "trace"

def label : LogLevel → String
  | .error => "ERROR"
  | .warn => "WARN"
  | .info => "INFO"
  | .debug => "DEBUG"
  | .trace => "TRACE"

def ofName? (s : String) : Option LogLevel := all.find? (·.name = s)

end LogLevel

inductive Event where
  | noConfig (path : Path)
  | configLoaded (path : Path)
  | checking (program : String) (script : Path)
  | checkExpired (script : Path) (limit : Duration)
  | entered (state : String)
  | finished (t : Termination)
  | targetResolved (requested : String) (resolved : Path)
  | scriptSkipped (path : Path) (e : IoError)
  | scriptStarted (path : Path) (commands : Nat)
  | checkFailed (status : Int)
  | commandsEnded (signal : Signal)
  | hookInstalled (program : String)
  | runFailed (status : Option UInt8)
  | launching (ctx : Context) (stop : Bool)
  | engineFailed (e : Fault)
  | attemptFailed (endpoint : Endpoint) (e : IoError)
  | connected (endpoint : Endpoint)
  | disconnected (endpoint : Endpoint)
  | inputClosed
  | targetSwitched (before after : Path)
  | exiting (t : Termination)
  deriving DecidableEq, Repr

namespace Event

def level : Event → LogLevel
  | .checkExpired _ _ => .warn
  | .scriptSkipped _ _ => .warn
  | .engineFailed _ => .warn
  | .launching _ _ => .info
  | .connected _ => .info
  | .disconnected _ => .info
  | _ => .debug

/-- The part of the debugger that tells, as log filters name it. -/
def target : Event → String
  | .noConfig _ => "stepline_core::config"
  | .configLoaded _ => "stepline_core::config"
  | .checking _ _ => "stepline_core::syntax"
  | .checkExpired _ _ => "stepline_core::syntax"
  | .hookInstalled _ => "stepline_runtime::interpreter"
  | .runFailed _ => "stepline_runtime::interpreter"
  | .launching _ _ => "stepline_runtime::launcher"
  | .engineFailed _ => "stepline_runtime::launcher"
  | .attemptFailed _ _ => "stepline_runtime::remote"
  | .connected _ => "stepline_runtime::remote"
  | .disconnected _ => "stepline_runtime::remote"
  | .inputClosed => "stepline_runtime::remote"
  | .targetSwitched _ _ => "stepline_cli::console"
  | .exiting _ => "stepline_cli::commands"
  | _ => "stepline_runtime::orchestrator"

def flagText (b : Bool) : String := if b then "true" else "false"

def statusText : Option UInt8 → String
  | none => "None"
  | some s => "Some(" ++ Decimal.text s.toNat ++ ")"

def text : Event → String
  | .noConfig path => "no config file, using defaults path=" ++ path.text
  | .configLoaded path => "loaded config path=" ++ path.text
  | .checking program script =>
    "running syntax check program=" ++ program ++ " script=" ++ script.text
  | .checkExpired script limit =>
    "syntax check timed out, killing it script=" ++ script.text ++
      " timeout_secs=" ++ limit.secondsText
  | .entered state => "orchestrator state state=" ++ Text.Quoted.text state
  | .finished t => "orchestrator finished termination=" ++ t.detail
  | .targetResolved requested resolved =>
    "resolved target requested=" ++ Text.Quoted.text requested ++ " resolved=" ++ resolved.text
  | .scriptSkipped path e =>
    "skipping unreadable init script path=" ++ path.text ++ " error=" ++ e.message
  | .scriptStarted path commands =>
    "running init script path=" ++ path.text ++ " commands=" ++ Decimal.text commands
  | .checkFailed status => "syntax check failed status=" ++ Decimal.intText status
  | .commandsEnded signal => "command session ended signal=" ++ signal.name
  | .hookInstalled program => "trace hook installed program=" ++ program
  | .runFailed status => "target exited abnormally status=" ++ statusText status
  | .launching ctx stop =>
    "launching debug session script=" ++ ctx.target.text ++ " stop=" ++ flagText stop ++
      " post_mortem=" ++ flagText ctx.settings.postMortem ++
      " linetrace=" ++ flagText ctx.settings.linetrace
  | .engineFailed e => "engine failed to run target error=" ++ e.message
  | .attemptFailed endpoint e =>
    "connection attempt failed addr=" ++ endpoint.text ++ " error=" ++ e.message
  | .connected endpoint => "connected to remote debugger endpoint=" ++ endpoint.text
  | .disconnected endpoint => "remote session ended endpoint=" ++ endpoint.text
  | .inputClosed => "user input closed, leaving remote session"
  | .targetSwitched before after =>
    "switched target from=" ++ before.text ++ " to=" ++ after.text
  | .exiting t =>
    "exiting termination=" ++ t.detail ++ " code=" ++ Decimal.intText t.exitCode

def line (e : Event) : String := e.level.label ++ " " ++ e.text

end Event

end DebugSession
