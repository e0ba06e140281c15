import DebugSession.Session.Notice
import DebugSession.Session.Services

/-!
One run of a script under the engine. How the run ends never fails the session, an engine that cannot
run the script included; an output that cannot take the report does.
-/

namespace DebugSession.Session

variable {σ : Type} (svc : Services σ)

/-- A fault of the engine counts as a failure of the run, with the fault's text as its message. -/
def outcome (ctx : Context) (stop : Bool) : Act σ RunResult := do
  match ← (svc.load ctx stop).attempt with
  | .ok failure? => return .ofFailure? failure?
  | .error e =>
    svc.record (.engineFailed e)
    return .failed { message := e.message }

def launch (ctx : Context) (stop : Bool) : Act σ RunResult := do
  svc.record (.launching ctx stop)
  let result ← outcome svc ctx stop
  match result with
  | .completed => return result
  | .failed failure =>
    svc.say (Notice.report failure).text
    svc.settle
    return result

end DebugSession.Session
