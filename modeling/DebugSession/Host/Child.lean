import DebugSession.Fault
import DebugSession.Lookup
import DebugSession.Shell.Run
import DebugSession.Verdict

/-!
Children of the debugger: what is started and what comes of it. A host looks for the program on the search
path and runs it to its end.
-/

namespace DebugSession.Host

/-- What is started: a program with its arguments, variables beside those of the debugger, and where
the three standard channels lead. -/
structure Order where
  program : String
  args : List Bytes
  vars : List (String × Bytes) := []
  channels : List (Nat × Shell.Channel)

/-- What came of a child. -/
structure Child where
  /-- `none` for a child that does not end. -/
  ended? : Option ChildEnd
  /-- Nanoseconds from start to end. -/
  lifetime : Nat
  /-- What it wrote, by output. -/
  outputs : Array Bytes

/-- The end of a child that is waited for without a limit. One that does not end is killed. -/
def Child.finalEnd (c : Child) : ChildEnd := c.ended?.getD (.killed 9)

/-- What a child finds. It shares the input of the debugger when a channel leads there. -/
structure Site where
  disk : Disk
  cwd : Place
  vars : List (String × Bytes)
  input : Bytes

/-- A way to run children that have so many outputs, each to its end. There is left a disk and the rest of
the input. -/
abbrev Runner := Site → Order → (outputs : Nat) → Except IoError (Child × Disk × Bytes)

namespace Site

/-- Whether a path can be started, and the entry there. -/
def startable (s : Site) (p : Path) : Except IoError Entry := do
  match ← s.disk.find s.cwd p with
  | (_, .tool t) => return .tool t
  | (_, .file content true) =>
    match Shell.shebang? content with
    | none => throw (.system .badExecutable)
    | some (interpreter, _) =>
      match ← s.disk.find s.cwd ⟨Shell.toBytes interpreter⟩ with
      | (_, .tool _) => return .file content true
      | (_, .file _ true) => return .file content true
      | _ => throw (.system .noPermission)
  | _ => throw (.system .noPermission)

/-- The places a program is looked for: only its own path when it has a slash. -/
def programPaths (s : Site) (program : String) : List Path :=
  if Lookup.hasSeparator program then [.ofText program]
  else if program = "" then []
  else
    let searchPath := (s.vars.lookup "PATH").getD (Utf8.encode "/bin:/usr/bin")
    (Text.cutAt (· = Lookup.colon) searchPath).map fun dir ↦
      if dir = [] then .ofText program else Path.join ⟨dir⟩ (.ofText program)

/-- The first path that can be started. Places without the program are passed over; so are those
that do not let it be started, but they are told about when no other place is left. -/
def search (s : Site) (last : IoError) : List Path → Except IoError (Path × Entry)
  | [] => .error last
  | p :: ps =>
    match s.startable p with
    | .ok e => .ok (p, e)
    | .error (.system .noEntry) => s.search last ps
    | .error (.system .notADirectory) => s.search last ps
    | .error (.system .noPermission) => s.search (.system .noPermission) ps
    | .error e => .error e

def findProgram (s : Site) (program : String) : Except IoError (Path × Entry) :=
  if Lookup.hasSeparator program then
    (s.startable (.ofText program)).map fun e ↦ (.ofText program, e)
  else s.search (.system .noEntry) (s.programPaths program)

def hasNul (bs : Bytes) : Bool := bs.contains 0

/-- The variables of a child: its own ones go before those of the debugger. -/
def childVariables (s : Site) (own : List (String × Bytes)) : List Shell.Variable :=
  (own ++ s.vars.filter fun v ↦ !own.any (·.1 = v.1)).map fun v ↦
    ⟨v.1, some (Shell.octets v.2), true⟩

/-- Nanoseconds that pass before a child does anything. -/
def startTime : Nat := 1000000

/-- The host runs scripts by its own shell. -/
def run : Runner := fun s order outputs ↦
  if hasNul (Utf8.encode order.program) || order.args.any hasNul then .error .nulInArgument
  else match s.findProgram order.program with
    | .error e => .error e
    | .ok (path, entry) =>
      let proc : Shell.Process := {
        name := Shell.octets path.bytes
        vars := s.childVariables order.vars
        channels := order.channels
        cwd := s.cwd
        pid := 1000 }
      let world : Shell.World := {
        disk := s.disk
        input := (Shell.octets s.input).toList
        outputs := (List.replicate outputs []).toArray
        clock := startTime
        nextPid := 1001 }
      let act := Shell.become Shell.fuelLimit (Shell.octets path.bytes) entry
        (order.args.map Shell.octets)
      let (result, after) := act.run { proc, world }
      let ended? := match result with
        | .error (.killed signal) => some (ChildEnd.killed signal)
        | .error .endless => none
        | _ => some (ChildEnd.exited (.ofNat after.proc.status))
      let child : Child := {
        ended?
        lifetime := after.world.clock
        outputs := ((List.range outputs).map fun n ↦
          Shell.toBytes (after.world.outputText n)).toArray }
      .ok (child, after.world.disk, Shell.toBytes (String.ofList after.world.input))

end Site

end DebugSession.Host
