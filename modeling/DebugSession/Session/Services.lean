import DebugSession.Log.Event
import DebugSession.Text.Utf8

/-!
What a session works with: an engine that runs scripts, a checker, consoles, a connection and an
output, over any state `σ` of theirs. Every answer is theirs to choose, faults included.
-/

namespace DebugSession

/-- Something that changes a state and may fail; the state it leaves counts even then. -/
abbrev Act (σ : Type) := ExceptT Fault (StateM σ)

namespace Act

variable {σ α : Type}

/-- The answer of `act`, fault or not. -/
def attempt (act : Act σ α) : Act σ (Except Fault α) := ExceptT.lift (ExceptT.run act)

end Act

structure Services (σ : Type) where
  /-- Prepares the engine. -/
  start : Act σ Unit
  /-- Runs a script to its end. -/
  load : Context → (stop : Bool) → Act σ (Option RunFailure)
  validate : Path → Act σ Verdict
  /-- One command session: it ends with a signal and leaves a context. -/
  processCommands : Context → Act σ (Signal × Context)
  /-- One command line of a script, in a console of its own. -/
  executeCommand : Context → String → Act σ (Signal × Context)
  /-- A whole remote session. -/
  connect : Endpoint → Act σ Unit
  write : Bytes → StateM σ (Except IoError Unit)
  flush : StateM σ (Except IoError Unit)
  note : Event → StateM σ Unit

namespace Services

variable {σ : Type} (svc : Services σ)

def record (e : Event) : Act σ Unit := ExceptT.lift (svc.note e)

/-- Shows a text; an output that fails ends the session. -/
def say (text : String) : Act σ Unit :=
  ExceptT.mk ((fun r ↦ r.mapError Fault.io) <$> svc.write (Utf8.encode text))

def settle : Act σ Unit :=
  ExceptT.mk ((fun r ↦ r.mapError Fault.io) <$> svc.flush)

end Services

end DebugSession
