import DebugSession.Duration
import DebugSession.Remote.Relay

/-!
Opening a connection to a debugger server. There is one attempt.
-/

namespace DebugSession.Remote

/-- What a network answers when a server is called: the octets that server sends, or a refusal. -/
abbrev Network := Endpoint → Except IoError Bytes

/-- A refusal at once goes before the complaint about a wait of no length. -/
def attempt (network : Network) (limit : Duration) (endpoint : Endpoint) : Except IoError Bytes :=
  match network endpoint with
  | .error e => .error e
  | .ok bs => if limit.toNanos = 0 then .error .zeroTimeout else .ok bs

/-- `none` in `received` means that there was no connection. -/
structure Call where
  result : Except Fault Unit
  sink : Sink
  received : Option Bytes
  rest : List Bytes
  events : List Event

def call (network : Network) (limit : Duration) (endpoint : Endpoint) (user : List Bytes)
    (sink : Sink) : Call :=
  match attempt network limit endpoint with
  | .error e =>
    { result := .error (.connect endpoint e), sink, received := none, rest := user
      events := [.attemptFailed endpoint e] }
  | .ok bs =>
    let x := relay (Text.cutAfter (· = 0x0A) bs) user sink
    { result := x.result, sink := x.sink, received := some x.sent.flatten, rest := x.rest
      events := .connected endpoint :: x.events ++ [.disconnected endpoint] }

end DebugSession.Remote
