import DebugSession.Shell.Condition
import DebugSession.Shell.Reader
import DebugSession.Shell.Tools
import DebugSession.Shell.Word

/-!
Running shell scripts and the other programs of a host. `fuel` bounds both how deep commands nest and
how often one loop turns; a run that uses it up counts as one without an end.
-/

namespace DebugSession.Shell

open Exec

/-- Enough for every script that ends in good time. -/
def fuelLimit : Nat := 200000

def separators : Exec (List Char) := do
  match ← valueOf "IFS" with
  | some s => return s.toList
  | none => return [' ', '\t', '\n']

/-- The options that a shell may have. -/
def optionLetters : List Char := "efnuvx".toList

/-- The value of a parameter that stands for one text. -/
def parameter? (name : String) : Exec (Option String) := do
  let p ← proc
  match name with
  | "?" => return some (Decimal.text p.status)
  | "#" => return some (Decimal.text p.args.length)
  | "$" => return some (Decimal.text p.pid)
  | "0" => return some p.name
  | "-" => return some (String.ofList (optionLetters.filter p.options.contains))
  | "!" => return some ""
  | "@" => return if p.args.isEmpty then none else some (" ".intercalate p.args)
  | "*" => return if p.args.isEmpty then none else some (" ".intercalate p.args)
  | name =>
    match Decimal.read? name.toList with
    | some n => return p.args[n - 1]?
    | none => valueOf name

/-- Ends the shell with a message of a builtin. -/
def failShell {α : Type} (message : String) : Exec α := do
  complain message
  setStatus 2
  throw .leave

/-- Ends the shell with a message of its own. -/
def failHere {α : Type} (message : String) : Exec α := do
  complainHere message
  setStatus 2
  throw .leave

/-- The value of a parameter whose absence may be an error. -/
def expected (name : String) : Exec String := do
  match ← parameter? name with
  | some s => return s
  | none =>
    if (← proc).stopsOnUnset && name ≠ "@" && name ≠ "*" then
      failHere (name ++ ": parameter not set")
    else return ""

/-- All arguments, cut from one another. -/
def argumentAtoms (quoted : Bool) : Exec (List Atom) := do
  let parts := (← proc).args.map fun a ↦ Atom.ofValue a quoted
  return (parts.intersperse [.cut]).flatten

def paramAtoms (name : String) (quoted : Bool) : Exec (List Atom) := do
  if name = "@" then argumentAtoms quoted
  else if name = "*" then
    if quoted then
      let glue := match (← separators).head? with
        | some c => String.singleton c
        | none => ""
      return Atom.ofValue (glue.intercalate (← proc).args) true
    else argumentAtoms false
  else return Atom.ofValue (← expected name) quoted

/-- Where a program of this name would be, in the order of the search path. -/
def programPaths (name : String) : Exec (List String) := do
  let path := (((← proc).vars.find? (·.name = "PATH")).bind (·.value)).getD "/bin:/usr/bin"
  return (Text.cutAt (· = ':') path.toList).map fun dir ↦
    if dir = [] then name else String.ofList dir ++ "/" ++ name

/-- Where a program of this name is: an entry to run, or the status and message of its absence. -/
def findProgram (name : String) : Exec (Except (Nat × String) (String × Host.Entry)) := do
  let w ← world
  let p ← proc
  let judge (path : String) : Except Bool Host.Entry :=
    match w.disk.find p.cwd ⟨toBytes path⟩ with
    | .ok (_, .file content true) => .ok (.file content true)
    | .ok (_, .tool t) => .ok (.tool t)
    | .ok _ => .error true
    | .error _ => .error false
  if name.toList.contains '/' then
    match judge name with
    | .ok e => return .ok (name, e)
    | .error true => return .error (126, name ++ ": Permission denied")
    | .error false => return .error (127, name ++ ": not found")
  else
    let candidates ← programPaths name
    match candidates.findSome? fun c ↦ (judge c).toOption.map fun e ↦ (c, e) with
    | some found => return .ok found
    | none =>
      if candidates.any fun c ↦
          match judge c with
          | .error true => true
          | _ => false then
        return .error (126, name ++ ": Permission denied")
      else return .error (127, name ++ ": not found")

/-- The program and the argument that the first line of a script names. -/
def shebang? (content : Bytes) : Option (String × List String) :=
  match (octets content).toList with
  | '#' :: '!' :: rest =>
    let line := Text.trimBoth (fun c ↦ c = ' ' || c = '\t') (rest.takeWhile (· ≠ '\n'))
    let program := line.takeWhile fun c ↦ c ≠ ' ' && c ≠ '\t'
    let arg := (line.drop program.length).dropWhile fun c ↦ c = ' ' || c = '\t'
    some (String.ofList program, if arg = [] then [] else [String.ofList arg])
  | _ => none

/-- What a shell says about a child that a signal killed. -/
def deathNotice : Nat → String
  | 1 => "Hangup\n"
  | 3 => "Quit\n"
  | 6 => "Aborted\n"
  | 9 => "Killed\n"
  | 11 => "Segmentation fault\n"
  | 14 => "Alarm clock\n"
  | 15 => "Terminated\n"
  | _ => ""

/-- The options in front of a shell's arguments: whether a command text follows, and the rest. A plus
sign turns options off. -/
def readShellOptions (p : Process) : List String → Except String (Process × Bool × List String)
  | [] => .ok (p, false, [])
  | arg :: args =>
    match arg.toList with
    | ['-', '-'] => .ok (p, false, args)
    | sign :: c :: letters =>
      let all := c :: letters
      if sign ≠ '-' ∧ sign ≠ '+' then .ok (p, false, arg :: args)
      else match all.find? fun c ↦ !(optionLetters.contains c || c = 'c') with
        | some c => .error ("Illegal option " ++ String.ofList [sign, c])
        | none =>
          let kept := p.options.filter (!all.contains ·)
          let options := if sign = '-' then kept ++ all.filter (· ≠ 'c') else kept
          match readShellOptions { p with options } args with
          | .ok (p, command, args) => .ok (p, command || all.contains 'c', args)
          | .error e => .error e
    | _ => .ok (p, false, arg :: args)

/-- A status that a command gives as a number. -/
def readStatus? (s : String) : Option Nat := (Decimal.read? s.toList).map (· % 256)

def splitAssignment (s : String) : String × Option String :=
  let cs := s.toList
  match cs.dropWhile (· ≠ '=') with
  | [] => (s, none)
  | _ :: value => (String.ofList (cs.takeWhile (· ≠ '=')), some (String.ofList value))

/-- Leaves as many loops as the argument says, one without it, and never more than are open. -/
def leaveLoops (name : String) (args : List String) (stop : Nat → Stop) : Exec Nat := do
  let levels? := match args.head? with
    | none => some 1
    | some s => (Decimal.read? s.toList).filter (0 < ·)
  match levels? with
  | none => failShell (name ++ ": Illegal number: " ++ args.headD "")
  | some n =>
    let depth := (← proc).loops
    if depth = 0 then return 0 else throw (stop (min n depth))

/-- Builtins that only change the shell itself, or nothing. -/
def plainBuiltin? (name : String) (args : List String) : Option (Exec Nat) :=
  match name with
  | ":" => some (pure 0)
  | "true" => some (pure 0)
  | "false" => some (pure 1)
  | "echo" => some (Tools.echo args)
  | "printf" => some (Tools.printf args)
  | "test" => some (Condition.test name args)
  | "[" => some (Condition.test name args)
  | "kill" => some (Tools.kill args)
  | "read" => some do Tools.read args (← separators)
  | "wait" => some (pure 0)
  | "trap" => some (pure 0)
  | "umask" => some (pure 0)
  | "pwd" => some do
    let _ ← write 1 (octets (Host.Disk.pathOf (← proc).cwd).bytes ++ "\n")
    return 0
  | "exit" => some do
    match args.head? with
    | none => throw .leave
    | some s =>
      match readStatus? s with
      | some n =>
        setStatus n
        throw .leave
      | none => failShell ("exit: Illegal number: " ++ s)
  | "return" => some do
    match args.head?.bind readStatus? with
    | some n => setStatus n
    | none => pure ()
    throw .returning
  | "break" => some (leaveLoops name args .breaking)
  | "continue" => some (leaveLoops name args .continuing)
  | "shift" => some do
    let n := (args.head?.bind readStatus?).getD 1
    if (← proc).args.length < n then failShell "shift: can't shift that many"
    else
      modifyProc fun p ↦ { p with args := p.args.drop n }
      return 0
  | "set" => some do
    match readShellOptions (← proc) args with
    | .error e => failShell ("set: " ++ e)
    | .ok (p, _, rest) =>
      let keeps := rest.isEmpty && !args.contains "--"
      modifyProc fun _ ↦ if keeps then p else { p with args := rest }
      return 0
  | "unset" => some do
    for a in args.filter (· ≠ "-v") do unsetVariable a
    return 0
  | "export" => some do
    for a in args.filter (· ≠ "-p") do
      let (name, value?) := splitAssignment a
      match value? with
      | some v => setVariable name v
      | none => pure ()
      exportVariable name
    return 0
  | "readonly" => some do
    for a in args do
      match splitAssignment a with
      | (name, some v) => setVariable name v
      | _ => pure ()
    return 0
  | "local" => some do
    if !(← proc).inFunction then failShell "local: not in a function"
    for a in args do
      let (name, value?) := splitAssignment a
      shadow name
      match value? with
      | some v => setVariable name v
      | none => pure ()
    return 0
  | "cd" => some do
    let home ← valueOf "HOME"
    let goal := args.head?.getD (home.getD "")
    match (← world).disk.find (← proc).cwd ⟨toBytes goal⟩ with
    | .ok (place, .directory) =>
      modifyProc fun p ↦ { p with cwd := place }
      setVariable "PWD" (octets (Host.Disk.pathOf place).bytes)
      return 0
    | _ =>
      complain ("cd: can't cd to " ++ goal)
      return 2
  | _ => none

/-- The text of a file that a redirection reads. -/
def openSource (name : String) : Exec (Option Channel) := do
  match (← world).disk.find (← proc).cwd ⟨toBytes name⟩ with
  | .ok (_, .file content _) => return some (.source (← newSource (octets content).toList))
  | .ok (_, .null) => return some .null
  | .ok _ => return some (.source (← newSource []))
  | .error (.system e) =>
    complainHere ("cannot open " ++ name ++ ": " ++
      (if e = .noEntry then "No such file" else e.meaning))
    return none
  | .error _ => return none

/-- The file that a redirection writes to, emptied unless the writing goes on at its end. -/
def openTarget (name : String) (append : Bool) : Exec (Option Channel) := do
  let w ← world
  let refuse (why : String) : Exec (Option Channel) := do
    complainHere ("cannot create " ++ name ++ ": " ++ why)
    return none
  match w.disk.locate (← proc).cwd true ⟨toBytes name⟩ with
  | .ok place =>
    match w.disk.get? place with
    | some .null => return some .null
    | some (.file content exec) =>
      if !append then
        modifyWorld fun w ↦ { w with disk := w.disk.put place (.file [] exec) }
      else modifyWorld fun w ↦ { w with disk := w.disk.put place (.file content exec) }
      return some (.file place)
    | none =>
      modifyWorld fun w ↦ { w with disk := w.disk.put place (.file [] false) }
      return some (.file place)
    | some .directory => refuse "Is a directory"
    | some _ => refuse "Permission denied"
  | .error (.system e) =>
    refuse (if e = .noEntry then "Directory nonexistent" else e.meaning)
  | .error _ => return none

def putChannel (n : Nat) (c : Option Channel) (channels : List (Nat × Channel)) :
    List (Nat × Channel) :=
  let others := channels.filter (·.1 ≠ n)
  match c with
  | some c => (n, c) :: others
  | none => others

/-- The child process of a program: it sees the variables that are exported. -/
def childOf (name : String) (args : List String) (p : Process) (pid : Nat) : Process where
  name := name
  args := args
  vars := p.vars.filter (·.exported)
  channels := p.channels
  cwd := p.cwd
  pid := pid

/-- Shows a command before it runs, where that is asked for. -/
def trace (words : List String) : Exec Unit := do
  if (← proc).options.contains 'x' then
    let _ ← write 2 ("+ " ++ " ".intercalate words ++ "\n")

/-- The file that `.` reads: a name without a slash is looked for on the search path. -/
def findScript (name : String) : Exec (Except String (String × Bytes)) := do
  let p ← proc
  let d := (← world).disk
  let readable? (path : String) : Option (String × Bytes) :=
    (d.read p.cwd ⟨toBytes path⟩).toOption.map fun content ↦ (path, content)
  if name.toList.contains '/' then
    match readable? name with
    | some found => return .ok found
    | none => return .error ("cannot open " ++ name ++ ": No such file")
  else
    match (← programPaths name).findSome? readable? with
    | some found => return .ok found
    | none => return .error (name ++ ": not found")

/-- Ends the shell at an error in the text it reads. -/
def failAt (e : Trouble) : Exec Unit := do
  modifyProc fun p ↦ { p with line := e.line }
  failHere ("Syntax error: " ++ e.message)

mutual

def partAtoms : (fuel : Nat) → Part → Exec (List Atom)
  | 0, _ => throw .endless
  | fuel + 1, part => do
    match part with
    | .text s quoted => return Atom.ofText s quoted
    | .param name quoted => paramAtoms name quoted
    | .bad => failHere "Bad substitution"
    | .length name quoted =>
      return Atom.ofValue (Decimal.text (← expected name).length) quoted
    | .sum expression quoted =>
      let text := Atom.text (← wordAtoms fuel expression)
      let vars := (← proc).vars
      let value (name : String) : String :=
        ((vars.find? (·.name = name)).bind (·.value)).getD ""
      match Arithmetic.evaluate value text with
      | .ok (n, assigned) =>
        for (name, v) in assigned.reverse do setVariable name (Decimal.intText v)
        return Atom.ofValue (Decimal.intText n) quoted
      | .error problem => failHere (problem.message text)
    | .output body quoted =>
      let p ← proc
      let k ← newOutput
      let child := { p with channels := putChannel 1 (some (.output k)) p.channels }
      let (status, _) ← inChild child (body.forM (run fuel))
      setStatus status
      let shown := ((← world).outputText k).toList.filter (· ≠ '\x00')
      return Atom.ofValue (String.ofList (Text.trimEnd (· = '\n') shown)) quoted
    | .paramUse name use nonEmpty w quoted =>
      let value? ← parameter? name
      let usable := value?.any fun s ↦ !(nonEmpty && s.isEmpty)
      match use with
      | .orElse =>
        if usable then paramAtoms name quoted
        else return (← wordAtoms fuel w).map Atom.expand
      | .instead =>
        if usable then return (← wordAtoms fuel w).map Atom.expand
        else return Atom.ofValue "" quoted
      | .orAssign =>
        if usable then paramAtoms name quoted
        else
          let text := Atom.text (← wordAtoms fuel w)
          setVariable name text
          return Atom.ofValue text quoted
      | .orFail =>
        if usable then paramAtoms name quoted
        else
          let text := Atom.text (← wordAtoms fuel w)
          failHere (name ++ ": " ++ (if text = "" then "parameter not set" else text))
      | _ =>
        let value := (← expected name).toList
        let pattern := Atom.pattern (← wordAtoms fuel w)
        let left := match use with
          | .dropShortFront => pattern.dropFront false value
          | .dropLongFront => pattern.dropFront true value
          | .dropShortBack => pattern.dropBack false value
          | _ => pattern.dropBack true value
        return Atom.ofValue (String.ofList left) quoted

def wordAtoms : (fuel : Nat) → Word → Exec (List Atom)
  | 0, _ => throw .endless
  | fuel + 1, w => return (← w.mapM (partAtoms fuel)).flatten

/-- The fields of several words. -/
def wordFields : (fuel : Nat) → List Word → Exec (List String)
  | 0, _ => throw .endless
  | fuel + 1, ws => do
    let fields ← ws.mapM fun w ↦ do
      let found := Atom.fields (← separators) (← wordAtoms fuel (homeward w))
      let d := (← world).disk
      let p ← proc
      return if p.options.contains 'f' then found.map Pattern.text
        else found.flatMap (fileNames d p.cwd)
    return fields.flatten

/-- The channels after redirections, or `none` when one of them cannot be made. -/
def redirectAll : (fuel : Nat) → List Redirect → List (Nat × Channel) →
    Exec (Option (List (Nat × Channel)))
  | 0, _, _ => throw .endless
  | _ + 1, [], channels => return some channels
  | fuel + 1, r :: rs, channels => do
    match r with
    | .here n text =>
      let k ← newSource (Atom.text (← wordAtoms fuel text)).toList
      redirectAll fuel rs (putChannel n (some (.source k)) channels)
    | .file n flow w =>
      let name := Atom.text (← wordAtoms fuel (homeward w))
      match flow with
      | .duplicate =>
        if name = "-" then redirectAll fuel rs (putChannel n none channels)
        else match Decimal.read? name.toList with
          | some k =>
            match channels.find? (·.1 = k) with
            | some found => redirectAll fuel rs (putChannel n (some found.2) channels)
            | none =>
              complainHere (name ++ ": Bad file descriptor")
              return none
          | none => failHere "Syntax error: Bad fd number"
      | _ =>
        let c? ← match flow with
          | .input => openSource name
          | .append => openTarget name true
          | _ => openTarget name false
        match c? with
        | some c => redirectAll fuel rs (putChannel n (some c) channels)
        | none => return none

/-- Runs a program in this process, which ends with it. -/
def become : (fuel : Nat) → (shown : String) → Host.Entry → List String → Exec Unit
  | 0, _, _, _ => throw .endless
  | fuel + 1, shown, entry, args => do
    match entry with
    | .tool .shell => runShell fuel args
    | .tool .env => runEnv fuel args
    | .tool t =>
      let status ← match t with
        | .echo => Tools.echo args
        | .printf => Tools.printf args
        | .false => pure 1
        | .test => Condition.test (Tools.lastStep shown "") args
        | .sleep => Tools.sleep args
        | .cat => Tools.cat args
        | .grep => Tools.grep args
        | .basename => Tools.basename args
        | .dirname => Tools.dirname args
        | _ => pure 0
      setStatus status
    | .file content _ =>
      match shebang? content with
      | some (program, given) =>
        match ← findProgram (if program.toList.contains '/' then program else "./" ++ program) with
        | .ok (_, e) => become fuel program e (given ++ shown :: args)
        | .error (status, _) =>
          complain (shown ++ ": not found")
          setStatus status
      | none => runShell fuel (shown :: args)
    | _ => setStatus 126

/-- Sets variables, then runs a program or lists all variables. -/
def runEnv : (fuel : Nat) → List String → Exec Unit
  | 0, _ => throw .endless
  | fuel + 1, args => do
    match args with
    | [] =>
      for v in (← proc).vars.reverse do
        let _ ← write 1 (v.name ++ "=" ++ v.value.getD "" ++ "\n")
      setStatus 0
    | arg :: args =>
      match splitAssignment arg with
      | (name, some v) =>
        setVariable name v
        exportVariable name
        runEnv fuel args
      | (name, none) =>
        match ← findProgram name with
        | .ok (shown, e) => become fuel shown e args
        | .error (status, _) =>
          let _ ← write 2 ("env: '" ++ name ++ "': " ++
            (if status = 127 then "No such file or directory" else "Permission denied") ++ "\n")
          setStatus status

/-- A shell with its own arguments: a command text, a script file, or the standard input. -/
def runShell : (fuel : Nat) → List String → Exec Unit
  | 0, _ => throw .endless
  | fuel + 1, args => do
    modifyProc fun p ↦ { p with name := "sh", line := 0, args := [] }
    match readShellOptions (← proc) args with
    | .error e => failShell e
    | .ok (p, isCommand, rest) =>
      modifyProc fun _ ↦ p
      match isCommand, rest with
      | true, [] => failShell "-c requires an argument"
      | true, text :: rest =>
        modifyProc fun p ↦ { p with name := rest.headD "sh", args := rest.drop 1 }
        runText fuel text
      | false, [] => runText fuel (String.ofList (← takeAll 0))
      | false, script :: rest =>
        match (← world).disk.read p.cwd ⟨toBytes script⟩ with
        | .ok content =>
          modifyProc fun p ↦ { p with name := script, args := rest }
          runText fuel (octets content)
        | .error (.system .isADirectory) => setStatus 0
        | .error (.system e) =>
          failShell ("cannot open " ++ script ++ ": " ++
            (if e = .noEntry then "No such file" else e.meaning))
        | .error e => failShell e.message

/-- Text line by line. What stands before an error in it has run by then. -/
def runLines : (fuel : Nat) → String → Exec Unit
  | 0, _ => throw .endless
  | fuel + 1, text => do
    let (lines, trouble?) := readScript text
    if lines.all List.isEmpty then setStatus 0
    for line in lines do
      line.forM (run fuel)
    match trouble? with
    | none => pure ()
    | some e => failAt e

/-- The text of a script, whose first command finds the status zero. -/
def runText : (fuel : Nat) → String → Exec Unit
  | 0, _ => throw .endless
  | fuel + 1, text => do
    setStatus 0
    if (← proc).options.contains 'n' then
      match (readScript text).2 with
      | some e => failAt e
      | none => pure ()
    else runLines fuel text

/-- A program as a process of its own. -/
def runProgram : (fuel : Nat) → String → List String → Exec Unit
  | 0, _, _ => throw .endless
  | fuel + 1, name, args => do
    match ← findProgram name with
    | .error (status, message) =>
      complainHere message
      setStatus status
    | .ok (shown, e) =>
      let pid := (← world).nextPid
      modifyWorld fun w ↦ { w with nextPid := pid + 1 }
      let child := childOf shown args (← proc) pid
      let (status, signal?) ← inChild child (become fuel shown e args)
      match signal? with
      | some n =>
        let _ ← write 2 (deathNotice n)
      | none => pure ()
      setStatus status

/-- A command by its name: a function, a builtin, or a program. -/
def invoke : (fuel : Nat) → String → List String → Exec Unit
  | 0, _, _ => throw .endless
  | fuel + 1, name, args => do
    let functions := (← proc).functions
    match (if Read.specialNames.contains name then none else functions.find? (·.1 = name)) with
    | some (_, body) =>
      let before ← proc
      modifyProc fun p ↦ { p with args, shadowed := [], inFunction := true, loops := 0 }
      untilReturn (run fuel body)
      for (name, old) in (← proc).shadowed do
        restoreVariable name old
      modifyProc fun p ↦
        { p with
          args := before.args
          shadowed := before.shadowed
          inFunction := before.inFunction
          loops := before.loops }
    | none =>
      match plainBuiltin? name args with
      | some act => setStatus (← act)
      | none =>
        match name, args with
        | "eval", args =>
          whileReading name (runLines fuel (" ".intercalate args))
        | ".", script :: _ =>
          match ← findScript script with
          | .ok (shown, content) =>
            whileReading shown (untilReturn (runLines fuel (octets content)))
          | .error why => failShell (".: " ++ why)
        | "command", "-v" :: name :: _ =>
          if (plainBuiltin? name []).isSome then
            let _ ← write 1 (name ++ "\n")
            setStatus 0
          else match ← findProgram name with
            | .ok (shown, _) =>
              let _ ← write 1 (shown ++ "\n")
              setStatus 0
            | .error _ => setStatus 127
        | "command", name :: args => invoke fuel name args
        | "exec", [] => setStatus 0
        | "exec", name :: args =>
          match ← findProgram name with
          | .ok (shown, e) =>
            modifyProc fun p ↦ childOf p.name args p p.pid
            become fuel shown e args
            throw Stop.leave
          | .error (status, message) =>
            complain ("exec: " ++ message)
            setStatus status
            throw Stop.leave
        | name, args => runProgram fuel name args

def run : (fuel : Nat) → Command → Exec Unit
  | 0, _ => throw .endless
  | fuel + 1, c => do
    match c with
    | .simple line assignments words redirects =>
      modifyProc fun p ↦ { p with line }
      let fields ← wordFields fuel words
      let before ← proc
      match ← redirectAll fuel redirects before.channels with
      | none =>
        setStatus 2
        if fields.head?.any Read.specialNames.contains then throw .leave
      | some channels =>
        match fields with
        | [] =>
          if words.isEmpty then setStatus 0
          let values ← assignments.mapM fun a ↦ do
            let v := Atom.text (← wordAtoms fuel (homeward a.2))
            setVariable a.1 v
            return a.1 ++ "=" ++ v
          if !values.isEmpty then trace values
        | name :: args =>
          let values ← assignments.mapM fun a ↦ do
            return (a.1, Atom.text (← wordAtoms fuel (homeward a.2)))
          trace (values.map (fun v ↦ v.1 ++ "=" ++ v.2) ++ fields)
          for (name, v) in values do
            setVariable name v
            exportVariable name
          if name = "exec" then
            modifyProc fun p ↦ { p with channels }
            invoke fuel name args
          else
            withChannels channels (invoke fuel name args)
            if !Read.specialNames.contains name then
              for (name, _) in values do
                restoreVariable name (before.vars.find? (·.name = name))
      let p ← proc
      if p.stopsOnError && p.status ≠ 0 then throw .leave
    | .pipeline negated stages =>
      if negated then
        let holds ← asTest (runStages fuel stages)
        setStatus (if holds then 1 else 0)
      else runStages fuel stages
    | .both a b =>
      if ← asTest (run fuel a) then run fuel b
    | .either a b =>
      if ← asTest (run fuel a) then pure () else run fuel b
    | .sequence cs => cs.forM (run fuel)
    | .background c =>
      let clock := (← world).clock
      let _ ← inChild (← proc) (run fuel c)
      modifyWorld fun w ↦ { w with clock }
      setStatus 0
    | .branch test yes no =>
      if ← asTest (run fuel test) then run fuel yes
      else match no with
        | some c => run fuel c
        | none => setStatus 0
    | .loop whileTrue test body =>
      let holds : Exec Bool := do
        let ok ← asTest (run fuel test)
        return ok = whileTrue
      inLoop (ExceptT.mk (repeatWhile holds (run fuel body) fuel 0))
    | .each name words body =>
      let values ← match words with
        | some ws => wordFields fuel ws
        | none => pure (← proc).args
      if values.isEmpty then setStatus 0
      inLoop (ExceptT.mk (repeatFor (fun v ↦ do
        setVariable name v
        run fuel body) values))
    | .choose w arms =>
      let text := (Atom.text (← wordAtoms fuel (homeward w))).toList
      runArms fuel text arms
    | .subshell c =>
      let (status, _) ← inChild (← proc) (run fuel c)
      setStatus status
      let p ← proc
      if p.stopsOnError && status ≠ 0 then throw .leave
    | .define name body =>
      modifyProc fun p ↦
        { p with functions := (name, body) :: p.functions.filter (·.1 ≠ name) }
      setStatus 0
    | .redirected c redirects =>
      match ← redirectAll fuel redirects (← proc).channels with
      | none => setStatus 2
      | some channels => withChannels channels (run fuel c)

/-- The first arm with a pattern that fits. -/
def runArms : (fuel : Nat) → List Char → List (List Word × Command) → Exec Unit
  | 0, _, _ => throw .endless
  | _ + 1, _, [] => setStatus 0
  | fuel + 1, text, (patterns, body) :: arms => do
    let fits ← patterns.anyM fun w ↦ do
      return (Atom.pattern (← wordAtoms fuel w)).matchesAll text
    if fits then
      match body with
      | .sequence [] => setStatus 0
      | _ => run fuel body
    else runArms fuel text arms

/-- Each stage runs to its end, and its output is what the next one reads. -/
def runStages : (fuel : Nat) → List Command → Exec Unit
  | 0, _ => throw .endless
  | _ + 1, [] => pure ()
  | fuel + 1, [c] => run fuel c
  | fuel + 1, c :: rest => do
    let p ← proc
    let k ← newOutput
    let first := { p with channels := putChannel 1 (some (.output k)) p.channels }
    let _ ← inChild first (run fuel c)
    let source ← newSource ((← world).outputText k).toList
    let next := { p with channels := putChannel 0 (some (.source source)) p.channels }
    let (status, _) ← inChild next (runStages fuel rest)
    setStatus status

end

end DebugSession.Shell
