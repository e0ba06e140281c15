import DebugSession.Proofs.Host.Check
import DebugSession.Proofs.Session.Induction
import DebugSession.Proofs.Session.Phases
import DebugSession.Rehearsal.Stage

/-!
What the exit status of a local session tells about its checks. `Concludes` has the logs that a session can
end with; `observing` keeps the children that the checks of a machine start, so that the log can be compared
with them.
-/

namespace DebugSession

variable {σ α : Type}

/-- What a session ends with after a verdict that lets nothing run, and the notice of it. -/
def Verdict.refusal? (script : Path) : Verdict → Option (Termination × Notice)
  | .passed => none
  | .failed status output => some (.checkFailed status, .checkOutput output)
  | .timedOut after => some (.checkTimedOut, .checkTimedOut script after)

def Call.verdict? : Call → Option Verdict
  | .validate _ (.ok v) => some v
  | _ => none

def verdicts (log : List Call) : List Verdict := log.filterMap Call.verdict?

theorem verdicts_append (log more : List Call) : verdicts (log ++ more) = verdicts log ++ verdicts more :=
  List.filterMap_append

namespace Session

section Conclusion

variable {env : Environment} {opts : Options} {t : Termination} {log : List Call}

/-- The last calls of a session with a script that is not to be run. -/
def refusal (script : Path) (v : Verdict) (notice : Notice) : List Call :=
  [.validate script (.ok v), .write (Utf8.encode notice.text) (.ok ()), .flush (.ok ())]

/-- A session ends by quitting or with a check that is refused. A check that passes is followed by the run of
the script at once. -/
inductive Concludes (opts : Options) : Termination → List Call → Prop
  | quit : Concludes opts .quit [.flush (.ok ())]
  | refused {script : Path} {v : Verdict} {t : Termination} {notice : Notice} :
      v.refusal? script = some (t, notice) → Concludes opts t (refusal script v notice)
  | passed {t : Termination} {ctx : Context} {answer : Except Fault (Option RunFailure)}
      {log : List Call} : Concludes opts t (.load ctx opts.stop answer :: log) →
      Concludes opts t (.validate ctx.target (.ok .passed) :: .load ctx opts.stop answer :: log)
  | other {t : Termination} {c : Call} {log : List Call} :
      c.verdict? = none → Concludes opts t log → Concludes opts t (c :: log)

/-- All verdicts are `passed`, but for the last one of a session that does not quit. -/
inductive Judged : Termination → List Call → Prop
  | quit {log : List Call} : (∀ v ∈ verdicts log, v = .passed) → Judged .quit log
  | refused (before : List Call) {script : Path} {v : Verdict} {t : Termination} {notice : Notice} :
      v.refusal? script = some (t, notice) → (∀ w ∈ verdicts before, w = .passed) →
      Judged t (before ++ refusal script v notice)

theorem Judged.cons {c : Call} (h : Judged t log) (hc : ∀ v, c.verdict? = some v → v = .passed) :
    Judged t (c :: log) := by
  have hcons : ∀ log, (∀ v ∈ verdicts log, v = .passed) → ∀ v ∈ verdicts (c :: log), v = .passed := by
    intro log hlog v hv
    obtain ⟨d, hd, hgiven⟩ := List.mem_filterMap.mp hv
    obtain rfl | hd := List.mem_cons.mp hd
    · exact hc v hgiven
    · exact hlog v (List.mem_filterMap.mpr ⟨d, hd, hgiven⟩)
  cases h with
  | quit hlog => exact .quit (hcons log hlog)
  | refused before hv hbefore => exact .refused (c :: before) hv (hcons before hbefore)

namespace Concludes

theorem prepend {calls : List Call} (hc : ∀ c ∈ calls, c.verdict? = none) (h : Concludes opts t log) :
    Concludes opts t (calls ++ log) := by
  induction calls with
  | nil => exact h
  | cons c calls ih =>
    rw [List.forall_mem_cons] at hc
    exact .other hc.1 (ih hc.2)

theorem judged (h : Concludes opts t log) : Judged t log := by
  induction h with
  | quit => exact .quit fun v hv ↦ absurd hv List.not_mem_nil
  | refused hv => exact .refused [] hv fun w hw ↦ absurd hw List.not_mem_nil
  | passed _ ih =>
    refine ih.cons ?_
    rintro v ⟨⟩
    rfl
  | other hc _ ih =>
    refine ih.cons ?_
    rw [hc]
    nofun

theorem run_of_passed (h : Concludes opts t log) {pre post : List Call} {script : Path}
    (hlog : log = pre ++ .validate script (.ok .passed) :: post) :
    ∃ ctx answer more, ctx.target = script ∧ post = .load ctx opts.stop answer :: more := by
  induction h generalizing pre with
  | quit =>
    obtain _ | ⟨c, pre⟩ := pre
    · cases hlog
    · simp at hlog
  | refused hv =>
    obtain _ | ⟨c, _ | ⟨c', _ | ⟨c'', pre⟩⟩⟩ := pre
    · cases hlog
      cases hv
    · cases hlog
    · cases hlog
    · simp [refusal] at hlog
  | passed _ ih =>
    obtain _ | ⟨c, pre⟩ := pre
    · cases hlog
      exact ⟨_, _, _, rfl, rfl⟩
    · exact ih (List.cons.inj hlog).2
  | other hc _ ih =>
    obtain _ | ⟨c, pre⟩ := pre
    · cases hlog
      cases hc
    · exact ih (List.cons.inj hlog).2

end Concludes

theorem Obeys.verdict?_eq_none {lines : List String} {ctx : Context} {calls : List Call}
    {r : Except Fault (Bool × Context)} (h : Obeys lines ctx calls r) :
    ∀ c ∈ calls, c.verdict? = none := by
  induction h with
  | nil => simp
  | fault | quit => simp [Call.verdict?]
  | cons _ _ ih => simpa [Call.verdict?] using ih

theorem RunsScripts.verdict?_eq_none {paths : List Path} {ctx : Context} {calls : List Call}
    {r : Except Fault (Bool × Context)} (h : RunsScripts env paths ctx calls r) :
    ∀ c ∈ calls, c.verdict? = none := by
  induction h with
  | nil => simp
  | missing _ _ ih => exact ih
  | untold => simp [Call.verdict?]
  | unreadable _ _ ih => simpa [Call.verdict?] using ih
  | fault _ _ ho | quit _ _ ho => exact ho.verdict?_eq_none
  | ran _ ho _ ih =>
    intro c hc
    obtain hc | hc := List.mem_append.mp hc
    · exact ho.verdict?_eq_none c hc
    · exact ih c hc

theorem Reports.verdict?_eq_none {failure? : Option RunFailure} {calls : List Call}
    {r : Except Fault Unit} (h : Reports failure? calls r) : ∀ c ∈ calls, c.verdict? = none := by
  cases h with
  | silent => simp
  | unwritten | written => simp [Call.verdict?]

/-- How a session can go on to its end from a state behind the choice of its mode. -/
def State.Concludes (opts : Options) (t : Termination) (log : List Call) : State → Prop
  | .modeSelect | .remoteConnect _ => True
  | .launch ctx => Session.Concludes opts t log ∧
      ∃ answer more, log = .load ctx opts.stop answer :: more
  | .done t' => t = t' ∧ log = [.flush (.ok ())]
  | .localPrep _ | .validate _ | .commandLoop _ => Session.Concludes opts t log

theorem Advances.concludes {state next : State} {calls more : List Call} {r : Except Fault State}
    (h : Advances env opts state calls r) (hr : r = .ok next) (hnext : next.Concludes opts t more)
    (hstate : ∀ t, state ≠ .done t) : state.Concludes opts t (calls ++ more) := by
  cases h with
  | version | help | badEndpoint | endpoint | target | noTarget => trivial
  | unannounced | unsettled | connected => trivial
  | unlocated | unstarted | unchecked | unprocessed => cases hr
  -- Where the next state is `done`, `hnext` has nothing left but the flush.
  | @prepared _ _ calls r _ hscripts =>
    refine .other rfl (.prepend hscripts.verdict?_eq_none ?_)
    match r, hr with
    | .ok (true, _), rfl =>
      obtain ⟨rfl, rfl⟩ := hnext
      exact .quit
    | .ok (false, _), rfl => exact hnext
  | passed ctx =>
    cases hr
    obtain ⟨hmore, answer, rest, rfl⟩ := hnext
    exact .passed hmore
  | failed ctx status output answer =>
    match answer, hr with
    | .ok (), rfl =>
      obtain ⟨rfl, rfl⟩ := hnext
      exact .refused rfl
  | timedOut ctx after answer =>
    match answer, hr with
    | .ok (), rfl =>
      obtain ⟨rfl, rfl⟩ := hnext
      exact .refused rfl
  | @ran ctx answer calls r hreports =>
    match r, hr with
    | .ok (), rfl => exact ⟨.other rfl (.prepend hreports.verdict?_eq_none hnext), answer, _, rfl⟩
  | ended =>
    cases hr
    obtain ⟨rfl, rfl⟩ := hnext
    exact .other rfl .quit
  | again =>
    cases hr
    exact .other rfl hnext
  | done t => exact absurd rfl (hstate t)

theorem Runs.concludes {steps : Nat} {state : State} {r : Except Fault (Option Termination)}
    (h : Runs env opts steps state log r) (hr : r = .ok (some t)) : state.Concludes opts t log := by
  induction h with
  | cut => cases hr
  | fault => cases hr
  | done steps t' answer =>
    match answer, hr with
    | .ok (), rfl => exact ⟨rfl, rfl⟩
  | step hstate ha _ ih => exact ha.concludes rfl (ih hr) hstate

end Conclusion

end Session

section Observation

open Host

variable {ρ κ : Type}

def aside (act : StateM σ α) : StateM (σ × ρ) α := fun s ↦
  let (answer, t) := act s.1
  (answer, t, s.2)

/-- The services with a list beside the state, where each check adds what `seen` finds before it. -/
def Services.observing (svc : Services σ) (seen : Path → σ → List κ) : Services (σ × List κ) where
  start := aside svc.start
  load ctx stop := aside (svc.load ctx stop)
  validate script := fun s ↦
    let (answer, t) := svc.validate script s.1
    (answer, t, s.2 ++ seen script s.1)
  processCommands ctx := aside (svc.processCommands ctx)
  executeCommand ctx line := aside (svc.executeCommand ctx line)
  connect endpoint := aside (svc.connect endpoint)
  write bs := aside (svc.write bs)
  flush := aside svc.flush
  note e := aside (svc.note e)

/-- A check answers with the verdict on what is seen before it, if anything is. -/
def Services.Reveals (svc : Services σ) (seen : Path → σ → List κ) (judge : κ → Verdict) : Prop :=
  ∀ script s, verdicts [.validate script (svc.validate script s).1] = (seen script s).map judge

/-- The same state and log on both sides, with verdicts that are those on what has been seen. -/
structure Observed (judge : κ → Verdict) (p : (σ × List κ) × List Call) (q : σ × List Call) : Prop where
  state : p.1.1 = q.1
  log : p.2 = q.2
  judged : verdicts q.2 = p.1.2.map judge

section Rules

variable {svc : Services σ} {seen : Path → σ → List κ} {judge : κ → Verdict}
  {p : (σ × List κ) × List Call} {q : σ × List Call}

theorem Observed.call (h : Observed judge p q) (call : α → Call) (act : StateM σ α)
    (hcall : ∀ answer, (call answer).verdict? = none) :
    (logged call (aside act) p).1 = (logged call act q).1 ∧
      Observed judge (logged call (aside act) p).2 (logged call act q).2 := by
  obtain ⟨⟨s, found⟩, log⟩ := p
  obtain ⟨t, log'⟩ := q
  obtain ⟨hs, hlog, hverdicts⟩ := h
  cases hs
  cases hlog
  refine ⟨rfl, rfl, rfl, ?_⟩
  change verdicts (log ++ [call (act s).1]) = found.map judge
  rw [verdicts_append, hverdicts]
  simp [verdicts, hcall]

theorem Observed.validate (h : Observed judge p q) (hreveals : svc.Reveals seen judge) (script : Path) :
    let observed := logged (.validate script) ((svc.observing seen).validate script) p
    let checked := logged (.validate script) (svc.validate script) q
    observed.1 = checked.1 ∧ Observed judge observed.2 checked.2 := by
  obtain ⟨⟨s, found⟩, log⟩ := p
  obtain ⟨t, log'⟩ := q
  obtain ⟨hs, hlog, hverdicts⟩ := h
  cases hs
  cases hlog
  refine ⟨rfl, rfl, rfl, ?_⟩
  change verdicts (log ++ [.validate script (svc.validate script s).1]) =
    (found ++ seen script s).map judge
  rw [verdicts_append, hverdicts, hreveals, List.map_append]

theorem Services.observing_pairs (hreveals : svc.Reveals seen judge) :
    (svc.observing seen).watched.Pairs svc.watched fun _ ↦ Together (Observed judge) where
  pure := Together.pure
  throw := Together.throw
  bind := Together.bind
  start _ _ h := h.call .start svc.start fun _ ↦ rfl
  attempt ctx stop _ _ h := by
    obtain ⟨hanswer, hleft⟩ := h.call (.load ctx stop) (svc.load ctx stop) fun _ ↦ rfl
    exact ⟨congrArg Except.ok hanswer, hleft⟩
  validate script _ _ h := h.validate hreveals script
  executeCommand ctx line _ _ h := h.call (.execute ctx line) (svc.executeCommand ctx line) fun _ ↦ rfl
  connect endpoint _ _ h := h.call (.connect endpoint) (svc.connect endpoint) fun _ ↦ rfl
  record e _ _ h := by
    obtain ⟨hs, hlog, hverdicts⟩ := h
    exact ⟨rfl, congrArg (fun s ↦ (svc.note e s).2) hs, hlog, hverdicts⟩
  say text _ _ h := by
    obtain ⟨hanswer, hleft⟩ :=
      h.call (.write (Utf8.encode text)) (svc.write (Utf8.encode text)) fun _ ↦ rfl
    exact ⟨congrArg (Except.mapError Fault.io) hanswer, hleft⟩
  settle _ _ h := by
    obtain ⟨hanswer, hleft⟩ := h.call .flush svc.flush fun _ ↦ rfl
    exact ⟨congrArg (Except.mapError Fault.io) hanswer, hleft⟩

/-- Observing changes nothing, and the verdicts of the session are those on what is seen. -/
theorem Session.run_observing (hreveals : svc.Reveals seen judge) (env : Environment) (opts : Options)
    (steps : Nat) (s : σ) :
    let found := (run (svc.observing seen) env opts steps (s, [])).2.2
    run (svc.observing seen) env opts steps (s, []) =
      ((run svc env opts steps s).1, (run svc env opts steps s).2, found) ∧
    verdicts (calls svc env opts steps s) = found.map judge := by
  intro found
  have hprocess : ∀ ctx, Together (Observed judge)
      ((svc.observing seen).watched.processCommands ctx) (svc.watched.processCommands ctx) :=
    fun ctx _ _ h ↦ h.call (.process ctx) (svc.processCommands ctx) fun _ ↦ rfl
  have hstart : Observed judge ((s, []), []) (s, []) := ⟨rfl, rfl, rfl⟩
  have hrun := runFrom_matches (match_of_pairs (Services.observing_pairs hreveals)) env opts hprocess
    steps .modeSelect ((s, []), []) (s, []) hstart
  rw [← run, ← run, run_watched, run_watched] at hrun
  obtain ⟨hanswer, hstate, -, hverdicts⟩ := hrun
  exact ⟨Prod.ext hanswer (Prod.ext hstate rfl), hverdicts⟩

end Rules

variable {checker : Checker}

theorem Host.Checker.refusal_of_not_passes {last : Trial} (h : ¬ checker.Passes last) {script : Path}
    {t : Termination} {notice : Notice}
    (hv : (checker.verdict last).refusal? script = some (t, notice)) :
    t.exitCode = checker.code last ∧ t ≠ .quit ∧
      (checker.expiry last = none → notice.text = Utf8.decodeLossy last.output) := by
  obtain ⟨-, ⟨limit, hexpiry, hcode, hverdict⟩ | ⟨-, hverdict⟩⟩ := Checker.verdict_of_not_passes h
  · rw [hverdict] at hv
    cases hv
    refine ⟨hcode.symm, nofun, ?_⟩
    rw [hexpiry]
    nofun
  · rw [hverdict] at hv
    cases hv
    exact ⟨rfl, nofun, fun _ ↦ rfl⟩

/-- What the exit status of a session tells about the children of its checks, given in order, and about its
log. A script that passes is run before anything is shown, and behind one that does not pass there is only a
notice, which is all that a failed child wrote. -/
structure ExitTells (checker : Checker) (opts : Options) (children : List Trial) (log : List Call)
    (t : Termination) : Prop where
  judged : verdicts log = children.map checker.verdict
  zero_iff : t.exitCode = 0 ↔ t = .quit
  quit : t = .quit → ∀ child ∈ children, checker.Passes child
  nonzero_iff : t.exitCode ≠ 0 ↔ ∃ last, children.getLast? = some last ∧ ¬ checker.Passes last
  refused : ∀ last, children.getLast? = some last → ¬ checker.Passes last →
    t.exitCode = checker.code last ∧ ∃ before script notice,
      log = before ++ Session.refusal script (checker.verdict last) notice ∧
      (checker.expiry last = none → notice.text = Utf8.decodeLossy last.output)
  passed : ∀ pre script post, log = pre ++ .validate script (.ok .passed) :: post →
    ∃ ctx answer more, ctx.target = script ∧ post = .load ctx opts.stop answer :: more

theorem Session.Concludes.exitTells {opts : Options} {t : Termination} {log : List Call}
    {children : List Trial} (h : Session.Concludes opts t log)
    (hchildren : verdicts log = children.map checker.verdict) :
    ExitTells checker opts children log t := by
  have hpassed : ∀ pre script post, log = pre ++ .validate script (.ok .passed) :: post →
      ∃ ctx answer more, ctx.target = script ∧ post = .load ctx opts.stop answer :: more :=
    fun pre script post ↦ h.run_of_passed
  cases h.judged with
  | quit hall =>
    have hpass : ∀ child ∈ children, checker.Passes child := by
      intro child hchild
      have hverdict := hall (checker.verdict child)
        (hchildren ▸ List.mem_map_of_mem hchild)
      exact Checker.verdict_eq_passed_iff.mp hverdict
    refine ⟨hchildren, ⟨fun _ ↦ rfl, fun _ ↦ rfl⟩, fun _ ↦ hpass, ⟨fun hne ↦ absurd rfl hne, ?_⟩, ?_,
      hpassed⟩
    · rintro ⟨last, hlast, hfails⟩
      exact absurd (hpass last (List.mem_of_getLast? hlast)) hfails
    · intro last hlast hfails
      exact absurd (hpass last (List.mem_of_getLast? hlast)) hfails
  | @refused before script v _ notice hv hbefore =>
    have hsplit : children.map checker.verdict = verdicts before ++ [v] := by
      rw [← hchildren, verdicts_append]
      rfl
    obtain ⟨init, rest, rfl, -, hrest⟩ := List.map_eq_append_iff.mp hsplit
    obtain ⟨last, rfl, rfl⟩ := List.map_eq_singleton_iff.mp hrest
    have hfails : ¬ checker.Passes last := by
      intro hpasses
      rw [Checker.verdict_eq_passed_iff.mpr hpasses] at hv
      cases hv
    obtain ⟨hcode, hquit, hnotice⟩ := Checker.refusal_of_not_passes hfails hv
    have hnonzero : t.exitCode ≠ 0 := hcode ▸ (Checker.verdict_of_not_passes hfails).1
    have hlast : (init ++ [last]).getLast? = some last := List.getLast?_concat
    refine ⟨hchildren, ⟨fun hzero ↦ absurd hzero hnonzero, fun ht ↦ absurd ht hquit⟩,
      fun ht ↦ absurd ht hquit, ⟨fun _ ↦ ⟨last, hlast, hfails⟩, fun _ ↦ hnonzero⟩, ?_, hpassed⟩
    intro last' hlast' _
    cases hlast.symm.trans hlast'
    exact ⟨hcode, before, script, notice, rfl, hnotice⟩

section OnMachine

variable {config : Config} {svc : Services σ} {bench : σ → Bench}

/-- Scripts are checked as on a machine: with the answer of its own check, on the bench that the state has. -/
def Services.ChecksOn (svc : Services σ) (config : Config) (bench : σ → Bench) : Prop :=
  ∀ script s, (svc.validate script s).1 = ((services config).validate script (bench s)).1

theorem Host.services_checksOn (config : Config) : (services config).ChecksOn config id :=
  fun _ _ ↦ rfl

/-- The child that a check starts on the bench of a state, unless it cannot be started. -/
def Host.tried (config : Config) (bench : σ → Bench) (script : Path) (s : σ) : List Trial :=
  ((bench s).machine.tryScript (.ofConfig config) script).1.toOption.toList

theorem Services.ChecksOn.reveals (h : svc.ChecksOn config bench) :
    svc.Reveals (tried config bench) (Checker.ofConfig config).verdict := by
  intro script s
  have hanswer : ((services config).validate script (bench s)).1 =
      (((bench s).machine.tryScript (.ofConfig config) script).1.map
        (Checker.ofConfig config).verdict).mapError .setup := by
    simp only [services, Bench.onMachine, Machine.check_eq]
  rw [h, hanswer]
  simp only [tried]
  cases ((bench s).machine.tryScript (.ofConfig config) script).1 with
  | error e => rfl
  | ok child => rfl

namespace Session

/-- Every local session that comes to an end and checks its scripts as a machine does, whatever children the
machine runs: a session on a machine itself, or one with another engine or other consoles. Keeping the
children of the checks does not change the session. -/
theorem exit_tells_checks (hchecks : svc.ChecksOn config bench) (env : Environment) {opts : Options}
    {target : String} (hlocal : opts.IsLocal target) (steps : Nat) (s : σ) {t : Termination}
    (h : (run svc env opts steps s).1 = .ok (some t)) :
    ∃ children, run (svc.observing (tried config bench)) env opts steps (s, []) =
        (.ok (some t), (run svc env opts steps s).2, children) ∧
      ExitTells (.ofConfig config) opts children (calls svc env opts steps s) t := by
  have hruns := calls_runs svc env opts steps s
  obtain ⟨hobserving, hchildren⟩ := run_observing hchecks.reveals env opts steps s
  rw [h] at hruns hobserving
  refine ⟨_, hobserving, ?_⟩
  cases steps with
  | zero => cases hruns
  | succ steps =>
    have hconcludes : Concludes opts t _ := (hruns.of_select hlocal).concludes rfl
    exact hconcludes.exitTells hchildren

/-- On a machine whose scripts leave a file behind when they run. The second check finds that file, and fails
with status 7 and text that is not UTF-8. -/
theorem exit_tells_checks_second_failed :
    let left : Disk := ⟨[([[0x61]], .file [] false)]⟩
    let runner : Runner := fun site _ outputs ↦
      if outputs = 2 then .ok (⟨some (.exited 0), 0, #[[], []]⟩, left, site.input)
      else if site.disk.entries = [] then .ok (⟨some (.exited 0), 0, #[[0x61]]⟩, site.disk, site.input)
      else .ok (⟨some (.exited 7), 0, #[[0x62, 0xFF]]⟩, site.disk, site.input)
    let config : Config := { interpreter := "sh", validationTimeout := some 5 }
    let opts : Options := { target := some "app" }
    let m : Machine := { disk := {}, cwd := [], input := Utf8.encode "restart\n", runner }
    let b : Bench := ⟨m, .ofConfig config⟩
    opts.IsLocal "app" ∧
      (run (services config) .bare opts 12 b).1 = .ok (some (.checkFailed 7)) ∧
      verdicts (calls (services config) .bare opts 12 b) = [.passed, .failed 7 "b\uFFFD"] ∧
      ∃ children, children.map Trial.ends = [.exited 0, .exited 7] ∧
        ExitTells (.ofConfig config) opts children (calls (services config) .bare opts 12 b)
          (.checkFailed 7) := by
  intro left runner config opts m b
  have hlocal : opts.IsLocal "app" := ⟨rfl, rfl, rfl, rfl⟩
  have hrun : (run (services config) .bare opts 12 b).1 = .ok (some (.checkFailed 7)) := by
    have hanswer : (run (services config) .bare opts 12 b).1.toOption =
        some (some (.checkFailed 7)) := by
      decide +kernel
    cases hr : (run (services config) .bare opts 12 b).1 with
    | error e =>
      rw [hr] at hanswer
      cases hanswer
    | ok t =>
      rw [hr] at hanswer
      exact congrArg Except.ok (Option.some.inj hanswer)
  obtain ⟨children, hobserved, htells⟩ :=
    exit_tells_checks (services_checksOn config) .bare hlocal 12 b hrun
  have hends : children.map Trial.ends = [.exited 0, .exited 7] := by
    have hchildren := congrArg (fun left ↦ left.2.2.map Trial.ends) hobserved
    exact hchildren.symm.trans (by decide +kernel)
  exact ⟨hlocal, hrun, by decide +kernel, children, hends, htells⟩

end Session

end OnMachine

end Observation

end DebugSession
