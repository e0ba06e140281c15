import DebugSession.Console.Dialogue
import DebugSession.Engine
import DebugSession.Host.Basic
import DebugSession.Session.Machine

/-!
A session on a machine: the interpreter checks and runs scripts as a child, and the consoles use the
machine's own input and output.
-/

namespace DebugSession.Host

/-- How scripts are checked. -/
structure Checker where
  program : String
  args : List String
  limit : Option Duration := none

def Checker.ofConfig (c : Config) : Checker :=
  { program := c.interpreter, args := c.syntaxCheckArgs, limit := c.checkLimit }

namespace Machine

/-- The machine's clock when the `n`-th look at a child is over. -/
def lookTime (n : Nat) : Nat := n * pollInterval + 1000

def lookAt (c : Child) (n : Nat) : Poll :=
  ⟨if c.lifetime ≤ n * pollInterval then c.ended? else none, lookTime n⟩

/-- A check's input is empty, and what it writes to its two outputs is captured as one text. -/
def checkOrder (checker : Checker) (script : Path) : Order where
  program := checker.program
  args := checker.args.map Utf8.encode ++ [script.bytes]
  channels := [(0, .null), (1, .output 0), (2, .output 0)]

def check (m : Machine) (checker : Checker) (script : Path) :
    Except SetupError Verdict × Machine :=
  let m := m.note (.checking checker.program script)
  match m.runChild (checkOrder checker script) 1 with
  | .error e => (.error (.spawn checker.program e), m)
  | .ok (child, m) =>
    let output := Utf8.decodeLossy (child.outputs.getD 0 [])
    match checker.limit with
    | none => (.ok (.ofEnd child.finalEnd output), m)
    | some limit =>
      match awaitEnd limit (lookAt child) limit.looks 0 with
      | some (some e) => (.ok (.ofEnd e output), m)
      | _ => (.ok (.timedOut limit), m.note (.checkExpired script limit))

/-- A run shares the input of the debugger, and what it says on its error channel is captured. -/
def runOrder (engine : Engine) (ctx : Context) (stop : Bool) : Order where
  program := engine.program
  args := engine.arguments ctx
  vars := Engine.vars ctx stop
  channels := [(0, .input), (1, .output 0), (2, .output 1)]

/-- Runs a script. Its output goes where the debugger's goes; what it says on its error channel is
passed on when it ended well and becomes the failure when it did not. -/
def load (m : Machine) (engine : Engine) (ctx : Context) (stop : Bool) :
    Except Fault (Option RunFailure) × Machine :=
  if !engine.started then (.error (.engine .notStarted), m)
  else match m.runChild (runOrder engine ctx stop) 2 with
    | .error e => (.error (.engine (.cannotStart engine.program e)), m)
    | .ok (child, m) =>
      let m := { m with stdout := (m.stdout.write (child.outputs.getD 0 [])).2 }
      let said := child.outputs.getD 1 []
      if child.finalEnd.isSuccess then
        let (result, stderr) := m.stderr.write said
        ((result.mapError .io).map fun _ ↦ none, { m with stderr })
      else
        (.ok (some (Engine.failureOf (Utf8.decodeLossy said) ctx.target child.finalEnd)),
          m.note (.runFailed child.finalEnd.code?))

end Machine

/-- A machine and the engine on it. -/
structure Bench where
  machine : Machine
  engine : Engine

namespace Bench

def onMachine {α : Type} (f : Machine → α × Machine) (b : Bench) : α × Bench :=
  let (a, machine) := f b.machine
  (a, { b with machine })

/-- The engine is prepared once. -/
def start (b : Bench) : Except Fault Unit × Bench :=
  if b.engine.started then (.ok (), b)
  else (.ok (), {
    machine := b.machine.note (.hookInstalled b.engine.program)
    engine := { b.engine with started := true } })

def load (ctx : Context) (stop : Bool) (b : Bench) : Except Fault (Option RunFailure) × Bench :=
  b.onMachine fun m ↦ m.load b.engine ctx stop

/-- Takes over what a console left. -/
def close (b : Bench) (c : Console.Close) : Except Fault (Signal × Context) × Bench :=
  let m := b.machine.keepLines c.rest
  (c.result.map fun signal ↦ (signal, c.context),
    { b with machine := { m with stdout := c.screen.sink, log := c.screen.notes } })

def screen (b : Bench) : Console.Screen := { sink := b.machine.stdout, notes := b.machine.log }

def lines (b : Bench) : List Bytes := Console.inputLines b.machine.readable

def executeCommand (ctx : Context) (line : String) (b : Bench) :
    Except Fault (Signal × Context) × Bench :=
  b.close (Console.execute b.machine.files.currentDir ctx line b.screen b.lines)

def processCommands (ctx : Context) (b : Bench) : Except Fault (Signal × Context) × Bench :=
  b.close (Console.converse b.machine.files.currentDir ctx b.screen b.lines)

def connect (limit : Duration) (endpoint : Endpoint) (b : Bench) : Except Fault Unit × Bench :=
  let m := b.machine
  let c := Remote.call m.network limit endpoint b.lines m.stdout
  (c.result, { b with machine := ({ m with stdout := c.sink }.keepLines c.rest).noteAll c.events })

end Bench

/-- The services of a machine under a configuration. -/
def services (config : Config) : Services Bench where
  start := Bench.start
  load := Bench.load
  validate script b :=
    let (result, b) := b.onMachine fun m ↦ m.check (Checker.ofConfig config) script
    (result.mapError .setup, b)
  processCommands := Bench.processCommands
  executeCommand := Bench.executeCommand
  connect := Bench.connect config.connectLimit
  write bs b := b.onMachine fun m ↦
    let (result, stdout) := m.stdout.write bs
    (result, { m with stdout })
  flush b := (.ok (), b)
  note e b := ((), { b with machine := b.machine.note e })

/-- Every command session takes a line or is the last one. -/
def Bench.sessions (b : Bench) : Nat := b.lines.length + 1

/-- A whole session on a machine. -/
def runSession (config : Config) (env : Session.Environment) (opts : Options) (m : Machine) :
    Except Fault (Option Termination) × Machine :=
  let bench : Bench := ⟨m, .ofConfig config⟩
  let steps := Session.stepsFor bench.sessions
  let (result, bench) := Session.run (services config) env opts steps bench
  (result, bench.machine)

end DebugSession.Host
