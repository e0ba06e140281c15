import DebugSession.Host.Disk
import DebugSession.Shell.Command
import DebugSession.Text.Decimal

/-!
What a shell process and its children work on: their variables and channels, and the world they
share.
-/

namespace DebugSession.Shell

/-- Where a channel of a process leads. -/
inductive Channel where
  | null
  /-- The standard input that all children share. -/
  | input
  | output (n : Nat)
  | source (n : Nat)
  | file (place : Host.Place)
  deriving DecidableEq, Repr

structure World where
  disk : Host.Disk
  input : List Char := []
  /-- What went to each output, newest first. -/
  outputs : Array (List String) := #[]
  /-- What is left to read of each source. -/
  sources : Array (List Char) := #[]
  /-- Nanoseconds gone. -/
  clock : Nat := 0
  nextPid : Nat := 1000

def World.outputText (w : World) (n : Nat) : String :=
  String.join (w.outputs.getD n []).reverse

structure Variable where
  name : String
  value : Option String
  exported : Bool := false

structure Process where
  name : String
  args : List String := []
  vars : List Variable := []
  functions : List (String × Command) := []
  /-- What the variables were that the running function made its own, newest first. -/
  shadowed : List (String × Option Variable) := []
  inFunction : Bool := false
  /-- How many loops of the script or of the running function are open. -/
  loops : Nat := 0
  channels : List (Nat × Channel)
  cwd : Host.Place
  status : Nat := 0
  pid : Nat
  /-- The command whose text is being run, as the shell's own messages name it. -/
  reading : Option String := none
  line : Nat := 1
  /-- The options that are on, by their letters. -/
  options : List Char := []
  /-- Inside a condition, where a failure ends nothing. -/
  tested : Bool := false

/-- A command that fails ends the shell, unless it is being tested. -/
def Process.stopsOnError (p : Process) : Bool := p.options.contains 'e' && !p.tested

/-- A parameter that is not set ends the shell. -/
def Process.stopsOnUnset (p : Process) : Bool := p.options.contains 'u'

/-- Why a command does not go on to the next one. -/
inductive Stop where
  | leave
  | killed (signal : Nat)
  | breaking (levels : Nat)
  | continuing (levels : Nat)
  | returning
  /-- The command has no end. -/
  | endless
  deriving DecidableEq, Repr

structure State where
  proc : Process
  world : World

abbrev Exec := ExceptT Stop (StateM State)

namespace Exec

def proc : Exec Process := return (← get).proc

def world : Exec World := return (← get).world

def modifyProc (f : Process → Process) : Exec Unit := modify fun s ↦ { s with proc := f s.proc }

def modifyWorld (f : World → World) : Exec Unit := modify fun s ↦ { s with world := f s.world }

def setStatus (n : Nat) : Exec Unit := modifyProc fun p ↦ { p with status := n }

def status : Exec Nat := return (← proc).status

def channel? (n : Nat) : Exec (Option Channel) :=
  return ((← proc).channels.find? (·.1 = n)).map (·.2)

def newOutput : Exec Nat := do
  let n := (← world).outputs.size
  modifyWorld fun w ↦ { w with outputs := w.outputs.push [] }
  return n

def newSource (text : List Char) : Exec Nat := do
  let n := (← world).sources.size
  modifyWorld fun w ↦ { w with sources := w.sources.push text }
  return n

/-- `false` when nothing can be written there. -/
def write (n : Nat) (text : String) : Exec Bool := do
  match ← channel? n with
  | some .null => return true
  | some (.output k) =>
    modifyWorld fun w ↦ { w with outputs := w.outputs.modify k (text :: ·) }
    return true
  | some (.file place) =>
    modifyWorld fun w ↦
      match w.disk.get? place with
      | some (.file content exec) =>
        { w with disk := w.disk.put place (.file (content ++ toBytes text) exec) }
      | _ => w
    return true
  | _ => return false

/-- A message of a builtin on the channel for errors. -/
def complain (message : String) : Exec Unit := do
  let p ← proc
  let _ ← write 2 (p.name ++ ": " ++ Decimal.text p.line ++ ": " ++ message ++ "\n")

/-- A message of the shell itself. -/
def complainHere (message : String) : Exec Unit := do
  match (← proc).reading with
  | some name => complain (name ++ ": " ++ message)
  | none => complain message

/-- Takes everything that a channel still has to read. -/
def takeAll (n : Nat) : Exec (List Char) := do
  match ← channel? n with
  | some .input =>
    let text := (← world).input
    modifyWorld fun w ↦ { w with input := [] }
    return text
  | some (.source k) =>
    let text := (← world).sources.getD k []
    modifyWorld fun w ↦ { w with sources := w.sources.modify k fun _ ↦ [] }
    return text
  | _ => return []

/-- Takes one line with its newline, if there is one. -/
def takeLine (n : Nat) : Exec (List Char) := do
  let text ← takeAll n
  let line := text.takeWhile (· ≠ '\n')
  let width := if line.length < text.length then line.length + 1 else line.length
  match ← channel? n with
  | some .input => modifyWorld fun w ↦ { w with input := text.drop width }
  | some (.source k) =>
    modifyWorld fun w ↦ { w with sources := w.sources.modify k fun _ ↦ text.drop width }
  | _ => pure ()
  return text.take width

def valueOf (name : String) : Exec (Option String) :=
  return ((← proc).vars.find? (·.name = name)).bind (·.value)

def setVariable (name value : String) : Exec Unit :=
  modifyProc fun p ↦
    if p.vars.any (·.name = name) then
      { p with vars := p.vars.map fun v ↦ if v.name = name then { v with value := some value } else v }
    else { p with vars := ⟨name, some value, false⟩ :: p.vars }

def exportVariable (name : String) : Exec Unit :=
  modifyProc fun p ↦
    if p.vars.any (·.name = name) then
      { p with vars := p.vars.map fun v ↦ if v.name = name then { v with exported := true } else v }
    else { p with vars := ⟨name, none, true⟩ :: p.vars }

def unsetVariable (name : String) : Exec Unit :=
  modifyProc fun p ↦ { p with vars := p.vars.filter (·.name ≠ name) }

/-- Puts a variable back as it was. -/
def restoreVariable (name : String) : Option Variable → Exec Unit
  | none => unsetVariable name
  | some old =>
    modifyProc fun p ↦
      if p.vars.any (·.name = name) then
        { p with vars := p.vars.map fun v ↦ if v.name = name then old else v }
      else { p with vars := old :: p.vars }

/-- Makes a variable the running function's own. -/
def shadow (name : String) : Exec Unit :=
  modifyProc fun p ↦
    { p with shadowed := (name, p.vars.find? (·.name = name)) :: p.shadowed }

/-- Runs something as a process of its own, of which only the world remains. The end of that process
is its status or the signal that killed it. A signal to the shell itself ends the shell as well. -/
def inChild (child : Process) (act : Exec Unit) : Exec (Nat × Option Nat) :=
  ExceptT.mk fun s ↦
    match act.run { s with proc := child } with
    | (result, after) =>
      let back : State := { after with proc := s.proc }
      match result with
      | .error (.killed n) =>
        if child.pid = s.proc.pid then (.error (.killed n), back) else (.ok (128 + n, some n), back)
      | .error .endless => (.error .endless, back)
      | _ => (.ok (after.proc.status, none), back)

/-- Runs `act`, then `restore` whether it came to its end or not. -/
def restoring (restore : Process → Process) (act : Exec Unit) : Exec Unit :=
  ExceptT.mk fun s ↦
    let (result, after) := act.run s
    (result, { after with proc := restore after.proc })

/-- Runs something as part of a condition, where a failure ends nothing. -/
def asTest (act : Exec Unit) : Exec Bool := do
  let before := (← proc).tested
  modifyProc fun p ↦ { p with tested := true }
  restoring (fun p ↦ { p with tested := before }) act
  return (← status) = 0

/-- Runs something with other channels, and puts the old ones back. -/
def withChannels (channels : List (Nat × Channel)) (act : Exec Unit) : Exec Unit := do
  let before := (← proc).channels
  modifyProc fun p ↦ { p with channels }
  restoring (fun p ↦ { p with channels := before }) act

/-- The end of a function or of a file that was read in. -/
def untilReturn (act : Exec Unit) : Exec Unit :=
  tryCatch act fun e ↦ if e = Stop.returning then pure () else throw e

/-- Runs something that a command has read in. -/
def whileReading (name : String) (act : Exec Unit) : Exec Unit := do
  let before := (← proc).reading
  modifyProc fun p ↦ { p with reading := some name }
  restoring (fun p ↦ { p with reading := before }) act

/-- Runs a loop as one more that is open. -/
def inLoop (loop : Exec Unit) : Exec Unit := do
  let before := (← proc).loops
  modifyProc fun p ↦ { p with loops := before + 1 }
  restoring (fun p ↦ { p with loops := before }) loop

/-- Runs `body` while `test` holds, `turns` times at most. The status is that of the last turn. -/
def repeatWhile (test : Exec Bool) (body : Exec Unit) :
    (turns : Nat) → (last : Nat) → State → Except Stop Unit × State
  | 0, _, s => (.error .endless, s)
  | turns + 1, last, s =>
    match test.run s with
    | (.error e, s) => (.error e, s)
    | (.ok false, s) => (.ok (), { s with proc := { s.proc with status := last } })
    | (.ok true, s) =>
      match body.run s with
      | (.ok (), s) => repeatWhile test body turns s.proc.status s
      | (.error (.breaking n), s) =>
        if n ≤ 1 then (.ok (), s) else (.error (.breaking (n - 1)), s)
      | (.error (.continuing n), s) =>
        if n ≤ 1 then repeatWhile test body turns s.proc.status s
        else (.error (.continuing (n - 1)), s)
      | (.error e, s) => (.error e, s)

/-- Runs `body` for each value in turn. -/
def repeatFor (body : String → Exec Unit) : List String → State → Except Stop Unit × State
  | [], s => (.ok (), s)
  | value :: values, s =>
    match (body value).run s with
    | (.ok (), s) => repeatFor body values s
    | (.error (.breaking n), s) => if n ≤ 1 then (.ok (), s) else (.error (.breaking (n - 1)), s)
    | (.error (.continuing n), s) =>
      if n ≤ 1 then repeatFor body values s else (.error (.continuing (n - 1)), s)
    | (.error e, s) => (.error e, s)

end Exec

end DebugSession.Shell
