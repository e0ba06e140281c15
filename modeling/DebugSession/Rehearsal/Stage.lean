import DebugSession.Console.Dialogue
import DebugSession.Rehearsal.Journal
import DebugSession.Session.Machine

/-!
A session with stand-ins. Each of them answers from a list made up beforehand and notes its calls; the
consoles may be real ones that read one text between them.
-/

namespace DebugSession.Rehearsal

/-- One thing that happened: a call of a stand-in, or octets shown. -/
inductive Mark where
  | called (entry : String)
  | shown (bs : Bytes)
  deriving DecidableEq, Repr

/-- A run of the stand-in engine. -/
inductive Outcome where
  | failure (f : RunFailure)
  | fault (message : String)
  deriving DecidableEq, Repr

/-- The consoles of a rehearsal. -/
inductive Consoles where
  /-- One signal for each command session, and quitting from then on. -/
  | scripted (signals : List Signal)
  | real (lines : List Bytes) (color : Bool)
  deriving DecidableEq, Repr

structure Stage where
  /-- Newest first. -/
  marks : List Mark := []
  /-- How many octets the output still takes, if there is a limit. -/
  room : Option Nat := none
  /-- Runs complete when the list is used up. -/
  outcomes : List Outcome := []
  /-- Checks pass when the list is used up. -/
  checks : List Verdict := []
  consoles : Consoles := .scripted []
  refuse : Bool := false
  /-- Where the scripts were that the engine ran, newest first. -/
  targets : List Path := []
  /-- Newest first. -/
  log : List Event := []
  deriving DecidableEq, Repr

namespace Stage

def call (s : Stage) (entry : String) : Stage := { s with marks := .called entry :: s.marks }

def launchEntry (ctx : Context) (stop : Bool) : String :=
  "launch " ++ ctx.target.shortText ++ " stop=" ++ Event.flagText stop ++
    " post_mortem=" ++ Event.flagText ctx.settings.postMortem ++
    " linetrace=" ++ Event.flagText ctx.settings.linetrace

def journal (s : Stage) : Journal :=
  ⟨s.marks.reverse.filterMap fun m ↦
    match m with
    | .called entry => some entry
    | .shown _ => none⟩

def shownBytes (s : Stage) : Bytes :=
  (s.marks.reverse.map fun m ↦
    match m with
    | .called _ => []
    | .shown bs => bs).flatten

section Marked

variable {s t : Stage} {entry : String} {bs : Bytes}

theorem entries_called (h : s.marks = .called entry :: t.marks) :
    s.journal.entries = t.journal.entries ++ [entry] := by
  simp [journal, h]

theorem entries_shown (h : s.marks = .shown bs :: t.marks) :
    s.journal.entries = t.journal.entries := by
  simp [journal, h]

theorem shownBytes_called (h : s.marks = .called entry :: t.marks) :
    s.shownBytes = t.shownBytes := by
  simp [shownBytes, h]

theorem shownBytes_shown (h : s.marks = .shown bs :: t.marks) :
    s.shownBytes = t.shownBytes ++ bs := by
  simp [shownBytes, h]

end Marked

/-- The marks in order, where what was shown between two calls is one mark. -/
def scenes (s : Stage) : List Mark :=
  s.marks.foldl (fun later m ↦
    match m, later with
    | .shown [], _ => later
    | .shown bs, .shown more :: later => .shown (bs ++ more) :: later
    | m, later => m :: later) []

def write (bs : Bytes) (s : Stage) : Except IoError Unit × Stage :=
  let (result, sink) := Sink.write bs { room := s.room }
  (result, { s with marks := .shown sink.bytes :: s.marks, room := sink.room })

theorem write_unlimited (bs : Bytes) {s : Stage} (h : s.room = none) :
    s.write bs = (.ok (), { s with marks := .shown bs :: s.marks }) := by
  obtain ⟨marks, room, outcomes, checks, consoles, refuse, targets, log⟩ := s
  obtain rfl : room = none := h
  simp [write, Sink.write, Sink.bytes]

def start (s : Stage) : Except Fault Unit × Stage := (.ok (), s.call "start")

def load (ctx : Context) (stop : Bool) (s : Stage) : Except Fault (Option RunFailure) × Stage :=
  let s := s.call (launchEntry ctx stop)
  let answer : Except Fault (Option RunFailure) := match s.outcomes.head? with
    | none => .ok none
    | some (.failure f) => .ok (some f)
    | some (.fault message) => .error (.engine (.other message))
  (answer, { s with targets := ctx.target :: s.targets, outcomes := s.outcomes.tail })

def validate (script : Path) (s : Stage) : Except Fault Verdict × Stage :=
  let s := s.call ("validate " ++ script.shortText)
  match s.checks with
  | [] => (.ok .passed, s)
  | v :: checks => (.ok v, { s with checks })

def connect (endpoint : Endpoint) (s : Stage) : Except Fault Unit × Stage :=
  let s := s.call ("connect " ++ endpoint.text)
  (if s.refuse then .error (.connect endpoint .refused) else .ok (), s)

/-- What a scripted console understands: `quit`, and a setting that is on if the word says exactly that. -/
def scriptedCommand (ctx : Context) (line : String) : Except Fault (Signal × Context) :=
  match Text.words line with
  | ["quit"] => .ok (.quit, ctx)
  | ["set", name, value] =>
    match Setting.ofName? name with
    | some setting => .ok (.resume, { ctx with settings := ctx.settings.set setting (value = "on") })
    | none => .error (.unknownSetting name)
  | _ => .ok (.resume, ctx)

/-- Takes over what a real console left. -/
def close (s : Stage) (color : Bool) (c : Console.Close) : Except Fault (Signal × Context) × Stage :=
  (c.result.map fun signal ↦ (signal, c.context),
    { s with
      marks := .shown c.screen.sink.bytes :: s.marks
      room := c.screen.sink.room
      consoles := .real c.rest color
      log := c.screen.notes ++ s.log })

def executeCommand (cwd : Except IoError Path) (ctx : Context) (line : String) (s : Stage) :
    Except Fault (Signal × Context) × Stage :=
  match s.consoles with
  | .scripted _ => (scriptedCommand ctx line, s.call ("rc " ++ line))
  | .real lines color =>
    s.close color (Console.execute cwd ctx line { sink := { room := s.room }, color } lines)

def processCommands (cwd : Except IoError Path) (ctx : Context) (s : Stage) :
    Except Fault (Signal × Context) × Stage :=
  match s.consoles with
  | .scripted signals =>
    let s := s.call ("commands " ++ ctx.target.shortText)
    (.ok (signals.headD .quit, ctx), { s with consoles := .scripted signals.tail })
  | .real lines color =>
    s.close color (Console.converse cwd ctx { sink := { room := s.room }, color } lines)

/-- Command sessions that can take place before one has to quit. -/
def sessions (s : Stage) : Nat :=
  match s.consoles with
  | .scripted signals => signals.length + 1
  | .real lines _ => lines.length + 1

end Stage

/-- The stand-ins as services. -/
def cast (cwd : Except IoError Path) : Services Stage where
  start := Stage.start
  load := Stage.load
  validate := Stage.validate
  processCommands := Stage.processCommands cwd
  executeCommand := Stage.executeCommand cwd
  connect := Stage.connect
  write := Stage.write
  flush s := (.ok (), s)
  note e s := ((), { s with log := e :: s.log })

/-- A whole session with stand-ins. -/
def rehearse (env : Session.Environment) (opts : Options) (s : Stage) :
    Except Fault (Option Termination) × Stage :=
  Session.run (cast env.files.currentDir) env opts (Session.stepsFor s.sessions) s

end DebugSession.Rehearsal
