import DebugSession.Text.Blank
import DebugSession.Text.Decimal

/-!
The address of a debugger server and the option values that name one.
-/

namespace DebugSession

structure Endpoint where
  host : String
  port : UInt16
  deriving DecidableEq, Repr

inductive EndpointError where
  | noPort
  | badPort (text : String)
  deriving DecidableEq, Repr

def EndpointError.message : EndpointError → String
  | .noPort => "Invalid remote endpoint: a port is required"
  | .badPort text => "Invalid remote endpoint: '" ++ text ++ "' is not a valid port"

namespace Endpoint

/-- The host of an endpoint that names only a port. -/
def defaultHost : String := "localhost"

/-- A port may be surrounded by blanks and signed with one plus. -/
def readPort? (text : String) : Option UInt16 :=
  let unsigned := match (Text.trim text).toList with
    | '+' :: ds => ds
    | ds => ds
  match Decimal.read? unsigned with
  | some n => if n < UInt16.size then some (UInt16.ofNat n) else none
  | none => none

/-- The last value is the port and the one before it the host, kept as it is even when empty.
Values further left do not count. -/
def ofValues (values : List String) : Except EndpointError Endpoint :=
  match values.reverse with
  | [] => .error .noPort
  | port :: hosts =>
    match readPort? port with
    | none => .error (.badPort port)
    | some n => .ok ⟨hosts.headD defaultHost, n⟩

def text (e : Endpoint) : String :=
  e.host ++ ":" ++ Decimal.text e.port.toNat

end Endpoint

end DebugSession
