import DebugSession.Console.Reply
import DebugSession.Sink

/-!
A console at work: `execute` for one line, and `converse` for a command session, which prompts for
lines until one of them ends it or none is left.
-/

namespace DebugSession.Console

/-- Where a console shows its texts. -/
structure Screen where
  sink : Sink := {}
  color : Bool := false
  /-- What it told the log, newest first. -/
  notes : List Event := []
  deriving DecidableEq, Repr

def Screen.show (s : Screen) (p : Piece) : Except Fault Unit × Screen :=
  let (result, sink) := s.sink.writeText (p.text s.color)
  (result.mapError .io, { s with sink })

/-- Shows pieces in order, up to the first that does not fit. -/
def Screen.showAll (s : Screen) : List Piece → Except Fault Unit × Screen
  | [] => (.ok (), s)
  | p :: ps =>
    match s.show p with
    | (.ok (), s) => s.showAll ps
    | (.error e, s) => (.error e, s)

/-- The end of one line: what came of it, and everything it left. -/
structure Turn where
  result : Except Fault (Option Signal)
  context : Context
  screen : Screen

/-- What a command changes stays changed when its answer cannot be shown. -/
def turn (cwd : Except IoError Path) (ctx : Context) (line : String) (screen : Screen) : Turn :=
  match (Command.ofLine line).perform cwd ctx with
  | .error e => ⟨.error e, ctx, screen⟩
  | .ok reply =>
    match { screen with notes := reply.events.reverse ++ screen.notes }.showAll reply.pieces with
    | (.ok (), screen) => ⟨.ok reply.signal, reply.context, screen⟩
    | (.error e, screen) => ⟨.error e, reply.context, screen⟩

/-- The end of a command session, or of a command that stands alone, and the lines left over. -/
structure Close where
  result : Except Fault Signal
  context : Context
  screen : Screen
  rest : List Bytes

/-- A command that ends no session counts as one that lets the script run on. -/
def execute (cwd : Except IoError Path) (ctx : Context) (line : String) (screen : Screen)
    (rest : List Bytes) : Close :=
  let t := turn cwd ctx line screen
  ⟨t.result.map (·.getD .resume), t.context, t.screen, rest⟩

/-- Reads from `lines` until one of them ends the session. The end of the lines quits. -/
def converse (cwd : Except IoError Path) (ctx : Context) (screen : Screen) : List Bytes → Close
  | [] =>
    match screen.showAll [.prompt, .plain "\n"] with
    | (.ok (), screen) => ⟨.ok .quit, ctx, screen, []⟩
    | (.error e, screen) => ⟨.error e, ctx, screen, []⟩
  | line :: lines =>
    match screen.show .prompt with
    | (.error e, screen) => ⟨.error e, ctx, screen, line :: lines⟩
    | (.ok (), screen) =>
      match Utf8.decode? line with
      | none => ⟨.error (.io .notUtf8), ctx, screen, lines⟩
      | some text =>
        let t := turn cwd ctx text screen
        match t.result with
        | .error e => ⟨.error e, t.context, t.screen, lines⟩
        | .ok (some signal) => ⟨.ok signal, t.context, t.screen, lines⟩
        | .ok none => converse cwd t.context t.screen lines

/-- The lines of an input, each with the newline that ends it. -/
def inputLines (bs : Bytes) : List Bytes := Text.cutAfter (· = 0x0A) bs

end DebugSession.Console
