import DebugSession.Endpoint

/-!
What one invocation asks for.
-/

namespace DebugSession

structure Options where
  version : Bool := false
  help : Bool := false
  /-- The values of `--remote` in the order given, a host and a port. -/
  remote : Option (List String) := none
  quit : Bool := false
  rc : Bool := false
  postMortem : Bool := false
  trace : Bool := false
  /-- Halt at the first line of the script before running any of it. -/
  stop : Bool := true
  target : Option String := none
  scriptArgs : List String := []
  deriving DecidableEq, Repr

def Options.endpoint? (opts : Options) : Option (Except EndpointError Endpoint) :=
  opts.remote.map Endpoint.ofValues

end DebugSession
