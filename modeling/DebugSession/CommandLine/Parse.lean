import DebugSession.CommandLine.Options

/-!
Reading a command line from left to right. The first argument that is neither an option nor a value of
one is the script. Options may still follow it; the next argument that is none of them begins the
script's own arguments, which are taken as they are.
-/

namespace DebugSession.CommandLine

/-- An option whose values are being read. They are judged when the next thing begins. -/
structure Pending where
  slot : Slot
  values : List String
  deriving DecidableEq, Repr

/-- What the arguments so far have said. -/
structure Draft where
  flags : List Flag := []
  remote : Option (List String) := none
  config : Option String := none
  logLevel : Option LogLevel := none
  script : Option String := none
  scriptArgs : List String := []
  pending : Option Pending := none
  deriving DecidableEq, Repr

namespace Draft

/-- Values of `--remote` add up; the other options may be given once. -/
def assign (d : Draft) (slot : Slot) (values : List String) : Except UsageError Draft :=
  match values with
  | [] => .error .invalidValue
  | value :: _ =>
    match slot with
    | .remote => .ok { d with remote := some (d.remote.getD [] ++ values) }
    | .config =>
      if d.config.isSome then .error .argumentConflict else .ok { d with config := some value }
    | .logLevel =>
      if d.logLevel.isSome then .error .argumentConflict
      else match LogLevel.ofName? value with
        | some level => .ok { d with logLevel := some level }
        | none => .error .invalidValue

/-- Judges the option whose values were being read, if there is one. -/
def settle (d : Draft) : Except UsageError Draft :=
  match d.pending with
  | none => .ok d
  | some p => assign { d with pending := none } p.slot p.values

def raise (d : Draft) (f : Flag) : Except UsageError Draft := do
  let d ← d.settle
  if d.flags.contains f then .error .argumentConflict else return { d with flags := f :: d.flags }

/-- An option with its value in the same argument. -/
def attach (d : Draft) (slot : Slot) (value : String) : Except UsageError Draft := do
  let d ← d.settle
  d.assign slot [value]

/-- An option with its values in the arguments that follow. -/
def await (d : Draft) (slot : Slot) : Except UsageError Draft := do
  let d ← d.settle
  return { d with pending := some ⟨slot, []⟩ }

/-- A value for the option that still takes one, if there is such an option. -/
def feed? (d : Draft) (value : String) : Option Draft :=
  match d.pending with
  | some p =>
    if p.values.length < p.slot.most then
      some { d with pending := some ⟨p.slot, p.values ++ [value]⟩ }
    else none
  | none => none

def long (d : Draft) (kind : Kind) (value : Option String) : Except UsageError Draft :=
  match kind, value with
  | .flag f, none => d.raise f
  | .flag _, some _ => .error .tooManyValues
  | .slot s, none => d.await s
  | .slot s, some v => d.attach s v

/-- A run of one-letter options. The rest behind one that takes values is its value, with or without an
equals sign. -/
def cluster (d : Draft) : List Char → Except UsageError Draft
  | [] => .ok d
  | c :: cs =>
    match ofShort? c with
    | none => .error .unknownArgument
    | some (.flag f) =>
      match d.raise f with
      | .ok d => cluster d cs
      | .error e => .error e
    | some (.slot s) =>
      match cs with
      | [] => d.await s
      | '=' :: value => d.attach s (String.ofList value)
      | value => d.attach s (String.ofList value)

def toInvocation (d : Draft) : Invocation where
  options := {
    version := d.flags.contains .version
    help := d.flags.contains .help
    remote := d.remote
    quit := d.flags.contains .quit
    rc := d.flags.contains .rc
    postMortem := d.flags.contains .postMortem
    trace := d.flags.contains .trace
    stop := !d.flags.contains .noStop
    target := d.script
    scriptArgs := d.scriptArgs }
  config := d.config
  logLevel := d.logLevel.getD .warn

end Draft

inductive Token where
  | escape
  | long (name : String) (value : Option String)
  | short (letters : List Char)
  | plain
  deriving DecidableEq, Repr

/-- A single hyphen is no option. -/
def Token.ofArgument (arg : String) : Token :=
  match arg.toList with
  | ['-', '-'] => .escape
  | '-' :: '-' :: rest =>
    match rest.dropWhile (· ≠ '=') with
    | [] => .long (String.ofList rest) none
    | _ :: value => .long (String.ofList (rest.takeWhile (· ≠ '='))) (some (String.ofList value))
  | '-' :: c :: rest => .short (c :: rest)
  | _ => .plain

/-- Whether an argument that looks like an option is one of ours, all its letters included. -/
def Token.isKnown : Token → Bool
  | .escape => true
  | .long name _ => (ofLong? name).isSome
  | .short letters => letters.all fun c ↦ (ofShort? c).isSome
  | .plain => false

/-- The script's arguments, taken as they are. -/
def readVerbatim (d : Draft) (args : List String) : Except UsageError Draft := do
  match args with
  | [] => d.settle
  | _ =>
    let d ← d.settle
    return { d with scriptArgs := args }

/-- What follows `--` in front of the script. -/
def readNames (d : Draft) : List String → Except UsageError Draft
  | [] => d.settle
  | script :: args => do
    let d ← d.settle
    readVerbatim { d with script := some script } args

/-- After the script: what is no option of ours belongs to the script, and so does all that follows. -/
def readAfterScript (d : Draft) : List String → Except UsageError Draft
  | [] => d.settle
  | arg :: args =>
    let token := Token.ofArgument arg
    if token.isKnown then
      match token with
      | .escape => readVerbatim d args
      | .long name value =>
        match ofLong? name with
        | some kind => (d.long kind value).bind (readAfterScript · args)
        | none => .error .unknownArgument
      | .short letters => (d.cluster letters).bind (readAfterScript · args)
      | .plain => .error .unknownArgument
    else match d.feed? arg with
      | some d => readAfterScript d args
      | none => readVerbatim d (arg :: args)

def readOptions (d : Draft) : List String → Except UsageError Draft
  | [] => d.settle
  | arg :: args =>
    match Token.ofArgument arg with
    | .escape => readNames d args
    | .long name value =>
      match ofLong? name with
      | some kind => (d.long kind value).bind (readOptions · args)
      | none => .error .unknownArgument
    | .short letters => (d.cluster letters).bind (readOptions · args)
    | .plain =>
      match d.feed? arg with
      | some d => readOptions d args
      | none => d.settle.bind fun d ↦ readAfterScript { d with script := some arg } args

def parse (args : List String) : Except UsageError Invocation :=
  (readOptions {} args).map Draft.toInvocation

end DebugSession.CommandLine
