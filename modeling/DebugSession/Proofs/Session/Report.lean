import DebugSession.Proofs.Host.Run
import DebugSession.Proofs.Session.Course

/-!
What a session tells about a run that failed. Whatever the child of the run said, the session hands it on
to its output line by line.
-/

namespace DebugSession

open Host

def Call.output : Call → Bytes
  | .write bs _ => bs
  | _ => []

/-- What the output is given, in order. -/
def outputOf (log : List Call) : Bytes := log.flatMap Call.output

namespace Session

theorem Reports.outputOf_eq {failure : RunFailure} {calls : List Call} {r : Except Fault Unit}
    (h : Reports (some failure) calls r) : outputOf calls = Utf8.encode failure.report := by
  cases h with
  | unwritten => exact List.append_nil (Utf8.encode failure.report)
  | written => exact List.append_nil (Utf8.encode failure.report)

/-- Every run on a machine that fails, whatever its child says and however it ends. -/
theorem launch_keeps_said (config : Config) (ctx : Context) (stop : Bool) {b : Bench} {child : Child}
    {left : Machine} (hstarted : b.engine.started)
    (hrun : b.machine.runChild (Machine.runOrder b.engine ctx stop) 2 = .ok (child, left))
    (hends : child.finalEnd.isSuccess = false) :
    let run := Run.ofChild child
    let failure := Engine.failureOf (Utf8.decodeLossy run.said) ctx.target run.ends
    let launched := launch (services config) ctx stop b
    ∃ told result, launch (services config).watched ctx stop (b, []) =
        (launched.1, launched.2, .load ctx stop (.ok (some failure)) :: told) ∧
      Reports (some failure) told result ∧ launched.1 = result.map (fun _ ↦ .failed failure) ∧
      run.Kept ctx.target failure (outputOf told) := by
  intro run failure launched
  have hload : ((services config).load ctx stop
      ((services config).note (.launching ctx stop) b).2).1 = .ok (some failure) :=
    Machine.load_of_failed hstarted (Machine.runChild_note _ hrun) hends
  obtain ⟨told, result, hwatched, hreports, hresult⟩ := launch_tells _ hload []
  refine ⟨told, result, hwatched, hreports, hresult, ?_⟩
  rw [hreports.outputOf_eq]
  exact run.kept_report ctx.target

/-- What is said here is not all UTF-8, has blank lines and stray carriage returns in it and no newline at
its end. -/
theorem launch_keeps_said_noisy :
    let said := Utf8.encode " \n\tboom " ++ 0xFF :: Utf8.encode "\r\r\n\n  from a:2\r\n\u00A0\nlast"
    let child : Child := ⟨some (.exited 3), 0, #[Utf8.encode "going on\n", said]⟩
    let runner : Runner := fun site _ _ ↦ .ok (child, site.disk, site.input)
    let engine : Engine := { program := "sh", runArgs := [], started := true }
    let b : Bench := ⟨{ disk := {}, cwd := [], runner }, engine⟩
    let ctx : Context := { target := .ofText "/app" }
    let run := Run.ofChild child
    let failure : RunFailure := ⟨"boom \uFFFD", ["from a:2", "last"]⟩
    child.finalEnd.isSuccess = false ∧ run.spoken = failure.message :: failure.backtrace ∧
      (launch (services {}) ctx true b).2.machine.stdout.bytes =
        Utf8.encode "going on\nboom \uFFFD\n\tfrom a:2\n\tlast\n" ∧
      ∃ told result, (launch (services {}).watched ctx true (b, [])).2.2 =
          .load ctx true (.ok (some failure)) :: told ∧
        Reports (some failure) told result ∧ run.Kept ctx.target failure (outputOf told) := by
  intro said child runner engine b ctx run failure
  have hstarted : b.engine.started := rfl
  have hrun : b.machine.runChild (Machine.runOrder b.engine ctx true) 2 = .ok (child, b.machine) := rfl
  have hends : child.finalEnd.isSuccess = false := by decide
  have hfailure : Engine.failureOf (Utf8.decodeLossy run.said) ctx.target run.ends = failure := by
    decide +kernel
  obtain ⟨told, result, hwatched, hreports, -, hkept⟩ :=
    launch_keeps_said {} ctx true hstarted hrun hends
  rw [hfailure] at hwatched hreports hkept
  exact ⟨hends, by decide +kernel, by decide +kernel, told, result, by rw [hwatched], hreports, hkept⟩

end Session

end DebugSession
