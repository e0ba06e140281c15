import DebugSession.Sink
import DebugSession.Log.Event
import DebugSession.Text.Blank

/-!
The user's side of a remote session. The server sends lines; one that begins with `PROMPT ` or
`CONFIRM ` asks for a line of the user, and every other one is shown.
-/

namespace DebugSession.Remote

def askLeads : List String := ["PROMPT ", "CONFIRM "]

inductive Message where
  | ask (text : String)
  | tell (text : String)
  deriving DecidableEq, Repr

def Message.ofLine (line : String) : Message :=
  let text := Text.chomp line
  match askLeads.findSome? (Text.after? · text) with
  | some rest => .ask rest
  | none => .tell text

/-- What is shown of a message: a question keeps the cursor on its line. -/
def Message.shown : Message → String
  | .ask text => text
  | .tell text => text ++ "\n"

/-- The user's answer as it is sent. -/
def answerText (line : String) : Bytes := Utf8.encode (Text.chomp line) ++ [0x0A]

structure Exchange where
  result : Except Fault Unit
  sink : Sink
  /-- The answers sent, in order. -/
  sent : List Bytes := []
  /-- The user's lines that were not asked for. -/
  rest : List Bytes
  events : List Event := []

def Exchange.after (answer : Bytes) (x : Exchange) : Exchange :=
  { x with sent := answer :: x.sent }

/-- The session ends with the server's lines, or with a question that the user has no line for. -/
def relay : (server user : List Bytes) → Sink → Exchange
  | [], user, sink => { result := .ok (), sink, rest := user }
  | line :: server, user, sink =>
    match Utf8.decode? line with
    | none => { result := .error (.io .notUtf8), sink, rest := user }
    | some line =>
      match sink.writeText (Message.ofLine line).shown with
      | (.error e, sink) => { result := .error (.io e), sink, rest := user }
      | (.ok (), sink) =>
        match Message.ofLine line with
        | .tell _ => relay server user sink
        | .ask _ =>
          match user with
          | [] => { result := .ok (), sink, rest := [], events := [.inputClosed] }
          | reply :: user =>
            match Utf8.decode? reply with
            | none => { result := .error (.io .notUtf8), sink, rest := user }
            | some reply => (relay server user sink).after (answerText reply)

end DebugSession.Remote
