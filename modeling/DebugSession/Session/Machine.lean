import DebugSession.InitScript
import DebugSession.Lookup
import DebugSession.Options
import DebugSession.Path.Absolute
import DebugSession.Session.Launch

/-!
The course of a session. It is in one state at a time, and `advance` does what that state asks for and
gives the next one: a script is checked before each run, and each run is followed by commands.
-/

namespace DebugSession.Session

/-- What a session is given besides its options. -/
structure Environment where
  files : Files
  /-- Where scripts named without a directory are looked for. -/
  searchPath : Option Bytes := none
  /-- The command files to run at the start, in order, when that is asked for. -/
  rcPaths : List Path := []
  version : String
  helpText : String

inductive State where
  | modeSelect
  | remoteConnect (endpoint : Endpoint)
  | localPrep (target : String)
  | validate (ctx : Context)
  | launch (ctx : Context)
  | commandLoop (ctx : Context)
  | done (t : Termination)
  deriving DecidableEq, Repr

def State.name : State → String
  | .modeSelect => "mode_select"
  | .remoteConnect _ => "remote_connect"
  | .localPrep _ => "local_prep"
  | .validate _ => "validate"
  | .launch _ => "launch"
  | .commandLoop _ => "command_loop"
  | .done _ => "done"

variable {σ : Type} (svc : Services σ) (env : Environment) (opts : Options)

def announce (n : Notice) : Act σ Unit := svc.say n.text

/-- The version goes before the help, the help before a remote session, and that before a script. -/
def selectMode : Act σ State := do
  if opts.version then
    announce svc (.banner env.version)
    return .done .version
  else if opts.help then
    announce svc (.help env.helpText)
    return .done .help
  else match opts.endpoint? with
    | some (.error e) => throw (.badEndpoint e)
    | some (.ok endpoint) => return .remoteConnect endpoint
    | none =>
      match opts.target with
      | some target => return .localPrep target
      | none =>
        announce svc .missingTarget
        return .done .missingTarget

def connectRemote (endpoint : Endpoint) : Act σ State := do
  announce svc (.connecting endpoint)
  svc.settle
  svc.connect endpoint
  return .done .remoteClosed

/-- Runs commands in order. The flag tells whether one of them quit, which ends the list. -/
def runCommands : List String → Context → Act σ (Bool × Context)
  | [], ctx => return (false, ctx)
  | line :: lines, ctx => do
    let (signal, ctx) ← svc.executeCommand ctx line
    if signal = .quit then return (true, ctx) else runCommands lines ctx

/-- Runs the command files that are there. One that cannot be read is told about and skipped. -/
def runScripts : List Path → Context → Act σ (Bool × Context)
  | [], ctx => return (false, ctx)
  | path :: paths, ctx => do
    match InitScript.read env.files path with
    | .ok none => runScripts paths ctx
    | .error e =>
      svc.record (.scriptSkipped path e)
      announce svc (.unreadableScript path e)
      runScripts paths ctx
    | .ok (some script) =>
      svc.record (.scriptStarted script.path script.commands.length)
      let (quit, ctx) ← runCommands svc script.commands ctx
      if quit then return (true, ctx) else runScripts paths ctx

/-- The absolute path of the script that `target` stands for. -/
def locate (target : String) : Except Fault Path :=
  (Path.absolute env.files.currentDir
    (Lookup.resolve env.files.isPresent env.searchPath target)).mapError fun e ↦ .setup (.io e)

/-- The settings of the options, whatever the command files set. -/
def requested (ctx : Context) : Context :=
  { ctx with settings := { postMortem := opts.postMortem, linetrace := opts.trace } }

def prepare (target : String) : Act σ State := do
  let script ← ExceptT.mk (pure (locate env target))
  svc.record (.targetResolved target script)
  svc.start
  let ctx : Context := { target := script, scriptArgs := opts.scriptArgs }
  if opts.rc then
    let (quit, ctx) ← runScripts svc env env.rcPaths ctx
    if quit then return .done .quit else return .validate (requested opts ctx)
  else return .validate (requested opts ctx)

def validate (ctx : Context) : Act σ State := do
  match ← svc.validate ctx.target with
  | .passed => return .launch ctx
  | .failed status output =>
    svc.record (.checkFailed status)
    announce svc (.checkOutput output)
    return .done (.checkFailed status)
  | .timedOut after =>
    announce svc (.checkTimedOut ctx.target after)
    return .done .checkTimedOut

def runOnce (ctx : Context) : Act σ State := do
  let _ ← launch svc ctx opts.stop
  return .commandLoop ctx

/-- After quitting, or after one run when only one is asked for, the session ends; else the script is
checked again. -/
def commandLoop (ctx : Context) : Act σ State := do
  let (signal, ctx) ← svc.processCommands ctx
  svc.record (.commandsEnded signal)
  if signal = .quit || opts.quit then return .done .quit else return .validate ctx

def advance : State → Act σ State
  | .modeSelect => selectMode svc env opts
  | .remoteConnect endpoint => connectRemote svc endpoint
  | .localPrep target => prepare svc env opts target
  | .validate ctx => validate svc ctx
  | .launch ctx => runOnce svc opts ctx
  | .commandLoop ctx => commandLoop svc opts ctx
  | .done t => return .done t

/-- At most `steps` states after another. `none` when the session goes on beyond them, as it may with
consoles that never quit. -/
def runFrom : (steps : Nat) → State → Act σ (Option Termination)
  | 0, _ => return none
  | steps + 1, state => do
    svc.record (.entered state.name)
    match state with
    | .done t =>
      svc.settle
      svc.record (.finished t)
      return some t
    | state =>
      let next ← advance svc env opts state
      runFrom steps next

def run (steps : Nat) : Act σ (Option Termination) := runFrom svc env opts steps .modeSelect

/-- The states of a session with at most `sessions` command sessions. -/
def stepsFor (sessions : Nat) : Nat := 3 * sessions + 4

end DebugSession.Session
