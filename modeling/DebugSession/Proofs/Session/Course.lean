import DebugSession.Proofs.Session.Calls

/-!
The course of a session as a relation: which calls it makes in each of its states and, for each way
they are answered, where it goes from there. `runFrom_emits` ties the relation to the session.
-/

namespace DebugSession.Session

section Relation

variable (env : Environment) (opts : Options)

/-- What is told about a run, if anything. -/
def reported : Except Fault (Option RunFailure) → Option RunFailure
  | .ok failure? => failure?
  | .error e => some { message := e.message }

/-- A notice is shown, and the session goes on with `a` if the output takes it. -/
def shown {α : Type} (a : α) (answer : Except IoError Unit) : Except Fault α :=
  (answer.mapError .io).map fun _ ↦ a

inductive Reports : Option RunFailure → List Call → Except Fault Unit → Prop
  | silent : Reports none [] (.ok ())
  | unwritten (f : RunFailure) (e : IoError) :
      Reports (some f) [.write (Utf8.encode (Notice.report f).text) (.error e)] (.error (.io e))
  | written (f : RunFailure) (answer : Except IoError Unit) :
      Reports (some f) [.write (Utf8.encode (Notice.report f).text) (.ok ()), .flush answer]
        (answer.mapError .io)

/-- Command lines are carried out one by one, each on the context that the one before left. -/
inductive Obeys : List String → Context → List Call → Except Fault (Bool × Context) → Prop
  | nil (ctx : Context) : Obeys [] ctx [] (.ok (false, ctx))
  | fault (line : String) (lines : List String) (ctx : Context) (e : Fault) :
      Obeys (line :: lines) ctx [.execute ctx line (.error e)] (.error e)
  | quit (line : String) (lines : List String) (ctx left : Context) :
      Obeys (line :: lines) ctx [.execute ctx line (.ok (.quit, left))] (.ok (true, left))
  | cons {line : String} {lines : List String} {ctx left : Context} {signal : Signal}
      {calls : List Call} {r : Except Fault (Bool × Context)} :
      signal ≠ .quit → Obeys lines left calls r →
      Obeys (line :: lines) ctx (.execute ctx line (.ok (signal, left)) :: calls) r

inductive RunsScripts : List Path → Context → List Call → Except Fault (Bool × Context) → Prop
  | nil (ctx : Context) : RunsScripts [] ctx [] (.ok (false, ctx))
  | missing {path : Path} {paths : List Path} {ctx : Context} {calls : List Call}
      {r : Except Fault (Bool × Context)} :
      InitScript.read env.files path = .ok none → RunsScripts paths ctx calls r →
      RunsScripts (path :: paths) ctx calls r
  | untold {path : Path} {e : IoError} (paths : List Path) (ctx : Context) (e' : IoError) :
      InitScript.read env.files path = .error e →
      RunsScripts (path :: paths) ctx
        [.write (Utf8.encode (Notice.unreadableScript path e).text) (.error e')] (.error (.io e'))
  | unreadable {path : Path} {e : IoError} {paths : List Path} {ctx : Context}
      {calls : List Call} {r : Except Fault (Bool × Context)} :
      InitScript.read env.files path = .error e → RunsScripts paths ctx calls r →
      RunsScripts (path :: paths) ctx
        (.write (Utf8.encode (Notice.unreadableScript path e).text) (.ok ()) :: calls) r
  | fault {path : Path} {script : InitScript} (paths : List Path) {ctx : Context}
      {calls : List Call} {e : Fault} :
      InitScript.read env.files path = .ok (some script) →
      Obeys script.commands ctx calls (.error e) → RunsScripts (path :: paths) ctx calls (.error e)
  | quit {path : Path} {script : InitScript} (paths : List Path) {ctx left : Context}
      {calls : List Call} :
      InitScript.read env.files path = .ok (some script) →
      Obeys script.commands ctx calls (.ok (true, left)) →
      RunsScripts (path :: paths) ctx calls (.ok (true, left))
  | ran {path : Path} {script : InitScript} {paths : List Path} {ctx left : Context}
      {calls more : List Call} {r : Except Fault (Bool × Context)} :
      InitScript.read env.files path = .ok (some script) →
      Obeys script.commands ctx calls (.ok (false, left)) → RunsScripts paths left more r →
      RunsScripts (path :: paths) ctx (calls ++ more) r

/-- The context that the command files find. -/
def initial (script : Path) : Context := { target := script, scriptArgs := opts.scriptArgs }

/-- Where the session goes from the command files. -/
def entry : Bool × Context → State
  | (true, _) => .done .quit
  | (false, ctx) => .validate (requested opts ctx)

inductive Advances : State → List Call → Except Fault State → Prop
  | version (answer : Except IoError Unit) : opts.version →
      Advances .modeSelect [.write (Utf8.encode (Notice.banner env.version).text) answer]
        (shown (.done .version) answer)
  | help (answer : Except IoError Unit) : opts.version = false → opts.help →
      Advances .modeSelect [.write (Utf8.encode (Notice.help env.helpText).text) answer]
        (shown (.done .help) answer)
  | badEndpoint {e : EndpointError} : opts.version = false → opts.help = false →
      opts.endpoint? = some (.error e) → Advances .modeSelect [] (.error (.badEndpoint e))
  | endpoint {endpoint : Endpoint} : opts.version = false → opts.help = false →
      opts.endpoint? = some (.ok endpoint) → Advances .modeSelect [] (.ok (.remoteConnect endpoint))
  | target {target : String} : opts.version = false → opts.help = false →
      opts.endpoint? = none → opts.target = some target →
      Advances .modeSelect [] (.ok (.localPrep target))
  | noTarget (answer : Except IoError Unit) : opts.version = false → opts.help = false →
      opts.endpoint? = none → opts.target = none →
      Advances .modeSelect [.write (Utf8.encode Notice.missingTarget.text) answer]
        (shown (.done .missingTarget) answer)
  | unannounced (endpoint : Endpoint) (e : IoError) :
      Advances (.remoteConnect endpoint)
        [.write (Utf8.encode (Notice.connecting endpoint).text) (.error e)] (.error (.io e))
  | unsettled (endpoint : Endpoint) (e : IoError) :
      Advances (.remoteConnect endpoint)
        [.write (Utf8.encode (Notice.connecting endpoint).text) (.ok ()), .flush (.error e)]
        (.error (.io e))
  | connected (endpoint : Endpoint) (answer : Except Fault Unit) :
      Advances (.remoteConnect endpoint)
        [.write (Utf8.encode (Notice.connecting endpoint).text) (.ok ()), .flush (.ok ()),
          .connect endpoint answer] (answer.map fun _ ↦ .done .remoteClosed)
  | unlocated {target : String} {e : Fault} :
      locate env target = .error e → Advances (.localPrep target) [] (.error e)
  | unstarted {target : String} {script : Path} (e : Fault) : locate env target = .ok script →
      Advances (.localPrep target) [.start (.error e)] (.error e)
  | prepared {target : String} {script : Path} {calls : List Call}
      {r : Except Fault (Bool × Context)} : locate env target = .ok script →
      RunsScripts env (if opts.rc then env.rcPaths else []) (initial opts script) calls r →
      Advances (.localPrep target) (.start (.ok ()) :: calls) (r.map (entry opts))
  | unchecked (ctx : Context) (e : Fault) :
      Advances (.validate ctx) [.validate ctx.target (.error e)] (.error e)
  | passed (ctx : Context) :
      Advances (.validate ctx) [.validate ctx.target (.ok .passed)] (.ok (.launch ctx))
  | failed (ctx : Context) (status : Int) (output : String) (answer : Except IoError Unit) :
      Advances (.validate ctx) [.validate ctx.target (.ok (.failed status output)),
        .write (Utf8.encode (Notice.checkOutput output).text) answer]
        (shown (.done (.checkFailed status)) answer)
  | timedOut (ctx : Context) (after : Duration) (answer : Except IoError Unit) :
      Advances (.validate ctx) [.validate ctx.target (.ok (.timedOut after)),
        .write (Utf8.encode (Notice.checkTimedOut ctx.target after).text) answer]
        (shown (.done .checkTimedOut) answer)
  | ran (ctx : Context) {answer : Except Fault (Option RunFailure)} {calls : List Call}
      {r : Except Fault Unit} : Reports (reported answer) calls r →
      Advances (.launch ctx) (.load ctx opts.stop answer :: calls)
        (r.map fun _ ↦ .commandLoop ctx)
  | unprocessed (ctx : Context) (e : Fault) :
      Advances (.commandLoop ctx) [.process ctx (.error e)] (.error e)
  | ended (ctx : Context) {signal : Signal} (left : Context) : signal = .quit ∨ opts.quit = true →
      Advances (.commandLoop ctx) [.process ctx (.ok (signal, left))] (.ok (.done .quit))
  | again (ctx : Context) {signal : Signal} (left : Context) : signal ≠ .quit → opts.quit = false →
      Advances (.commandLoop ctx) [.process ctx (.ok (signal, left))] (.ok (.validate left))
  | done (t : Termination) : Advances (.done t) [] (.ok (.done t))

/-- What a session makes of the states that it is given, from one state on. -/
inductive Runs : Nat → State → List Call → Except Fault (Option Termination) → Prop
  | cut (state : State) : Runs 0 state [] (.ok none)
  | done (steps : Nat) (t : Termination) (answer : Except IoError Unit) :
      Runs (steps + 1) (.done t) [.flush answer] (shown (some t) answer)
  | fault (steps : Nat) {state : State} {calls : List Call} {e : Fault} :
      (∀ t, state ≠ .done t) → Advances env opts state calls (.error e) →
      Runs (steps + 1) state calls (.error e)
  | step {steps : Nat} {state next : State} {calls more : List Call}
      {r : Except Fault (Option Termination)} :
      (∀ t, state ≠ .done t) → Advances env opts state calls (.ok next) →
      Runs steps next more r → Runs (steps + 1) state (calls ++ more) r

end Relation

variable {σ : Type} (svc : Services σ) (env : Environment) (opts : Options)

theorem say_emits {α : Type} {Q : List Call → Except Fault α → Prop} (a : α) (text : String)
    (h : ∀ answer, Q [.write (Utf8.encode text) answer] (shown a answer)) :
    Emits Q (svc.watched.say text >>= fun _ ↦ pure a) (svc.say text >>= fun _ ↦ pure a) :=
  say_bind svc text (fun e ↦ h (.error e)) (.pure (h (.ok ())))

theorem selectMode_emits :
    Emits (Advances env opts .modeSelect) (selectMode svc.watched env opts)
      (selectMode svc env opts) := by
  unfold selectMode announce
  split
  next hv => exact say_emits svc _ _ fun answer ↦ .version answer hv
  next hv =>
    rw [Bool.not_eq_true] at hv
    split
    next hh => exact say_emits svc _ _ fun answer ↦ .help answer hv hh
    next hh =>
      rw [Bool.not_eq_true] at hh
      split
      next e he => exact fun s log ↦ ⟨[], by simp; rfl, .badEndpoint hv hh he⟩
      next endpoint he => exact .pure (.endpoint hv hh he)
      next he =>
        split
        next target ht => exact .pure (.target hv hh he ht)
        next ht => exact say_emits svc _ _ fun answer ↦ .noTarget answer hv hh he ht

theorem connectRemote_emits (endpoint : Endpoint) :
    Emits (Advances env opts (.remoteConnect endpoint)) (connectRemote svc.watched endpoint)
      (connectRemote svc endpoint) := by
  unfold connectRemote announce
  refine say_bind svc _ (.unannounced endpoint) ?_
  refine settle_bind svc (.unsettled endpoint) ?_
  refine Emits.logged_bind _ (svc.connect endpoint) (fun e ↦ .connected endpoint (.error e)) ?_
  exact fun _ ↦ .pure (.connected endpoint (.ok ()))

theorem runCommands_emits (lines : List String) (ctx : Context) :
    Emits (Obeys lines ctx) (runCommands svc.watched lines ctx) (runCommands svc lines ctx) := by
  induction lines generalizing ctx with
  | nil => exact .pure (.nil ctx)
  | cons line lines ih =>
    unfold runCommands
    refine Emits.logged_bind _ (svc.executeCommand ctx line) (.fault line lines ctx) fun close ↦ ?_
    obtain ⟨signal, left⟩ := close
    dsimp only
    split
    next hs => exact .pure (hs ▸ .quit line lines ctx left)
    next hs => exact (ih left).mono fun calls r h ↦ .cons hs h

theorem runScripts_emits (paths : List Path) (ctx : Context) :
    Emits (RunsScripts env paths ctx) (runScripts svc.watched env paths ctx)
      (runScripts svc env paths ctx) := by
  induction paths generalizing ctx with
  | nil => exact .pure (.nil ctx)
  | cons path paths ih =>
    unfold runScripts
    split
    next hr => exact (ih ctx).mono fun calls r h ↦ .missing hr h
    next e hr =>
      refine record_bind svc _ ?_
      refine say_bind svc _ (fun e' ↦ .untold paths ctx e' hr) ?_
      exact (ih ctx).mono fun calls r h ↦ .unreadable hr h
    next script hr =>
      refine record_bind svc _ ?_
      refine (runCommands_emits svc script.commands ctx).bind ?_ ?_
      · exact fun calls e h ↦ .fault paths hr h
      · intro calls close h
        obtain ⟨_ | _, left⟩ := close
        · exact (ih left).mono fun more r h' ↦ by simpa using .ran hr h h'
        · exact .pure (by simpa using .quit paths hr h)

theorem prepare_emits (target : String) :
    Emits (Advances env opts (.localPrep target)) (prepare svc.watched env opts target)
      (prepare svc env opts target) := by
  unfold prepare
  have hl : Emits (fun calls r ↦ calls = [] ∧ r = locate env target)
      (ExceptT.mk (pure (locate env target)) : Act (σ × List Call) Path)
      (ExceptT.mk (pure (locate env target))) :=
    fun s log ↦ ⟨[], by simp; rfl, rfl, rfl⟩
  refine hl.bind ?_ ?_
  · intro calls e h
    obtain ⟨rfl, he⟩ := h
    exact .unlocated he.symm
  intro calls script h
  obtain ⟨rfl, hs⟩ := h
  refine record_bind svc _ ?_
  refine Emits.logged_bind _ svc.start (fun e ↦ .unstarted e hs.symm) fun _ ↦ ?_
  dsimp only
  split
  next hrc =>
    refine (runScripts_emits svc env env.rcPaths _).bind ?_ ?_
    · exact fun calls e h ↦ .prepared hs.symm (by rwa [if_pos hrc])
    · intro calls close h
      have hp : Advances env opts (.localPrep target) _ _ :=
        .prepared hs.symm (by rw [if_pos hrc]; exact h)
      obtain ⟨quit, left⟩ := close
      cases quit <;> exact .pure (by simpa [Except.map, entry] using hp)
  next hrc =>
    have hn : RunsScripts env (if opts.rc then env.rcPaths else []) (initial opts script) []
        (.ok (false, initial opts script)) := by rw [if_neg hrc]; exact .nil _
    exact .pure (.prepared hs.symm hn)

theorem validate_emits (ctx : Context) :
    Emits (Advances env opts (.validate ctx)) (validate svc.watched ctx) (validate svc ctx) := by
  unfold validate announce
  refine Emits.logged_bind _ (svc.validate ctx.target) (.unchecked ctx) fun verdict ↦ ?_
  cases verdict with
  | passed => exact .pure (.passed ctx)
  | failed status output =>
    refine record_bind svc _ ?_
    exact say_emits svc _ _ fun answer ↦ .failed ctx status output answer
  | timedOut after => exact say_emits svc _ _ fun answer ↦ .timedOut ctx after answer

/-- Shows the report about a failure. -/
def report (failure : RunFailure) : Act σ Unit := do
  svc.say (Notice.report failure).text
  svc.settle

/-- What a session makes of the answer of the engine to a run. -/
def tell : Except Fault (Option RunFailure) → Act σ Unit
  | .ok none => pure ()
  | .ok (some failure) => report svc failure
  | .error e => do
    svc.record (.engineFailed e)
    report svc { message := e.message }

theorem launch_eq (ctx : Context) (stop : Bool) :
    launch svc ctx stop = (do
      svc.record (.launching ctx stop)
      let answer ← (svc.load ctx stop).attempt
      tell svc answer
      return .ofFailure? (reported answer)) := by
  unfold launch outcome tell
  simp only [bind_assoc]
  congr 1
  funext _
  congr 1
  funext answer
  obtain e | _ | failure := answer <;> simp [report, reported, RunResult.ofFailure?]

theorem runOnce_eq (ctx : Context) :
    runOnce svc opts ctx = (do
      svc.record (.launching ctx opts.stop)
      let answer ← (svc.load ctx opts.stop).attempt
      tell svc answer
      return .commandLoop ctx) := by
  rw [runOnce, launch_eq]
  simp only [bind_assoc, pure_bind]

theorem report_emits (failure : RunFailure) :
    Emits (Reports (some failure)) (report svc.watched failure) (report svc failure) := by
  have hsettle : Emits (fun calls r ↦ ∃ answer, calls = [.flush answer] ∧ r = answer.mapError .io)
      svc.watched.settle svc.settle :=
    fun _ _ ↦ ⟨_, rfl, _, rfl, rfl⟩
  refine say_bind svc _ (fun e ↦ .unwritten failure e) (hsettle.mono ?_)
  intro calls r h
  obtain ⟨answer, rfl, rfl⟩ := h
  exact .written failure answer

theorem tell_emits (answer : Except Fault (Option RunFailure)) :
    Emits (Reports (reported answer)) (tell svc.watched answer) (tell svc answer) := by
  obtain e | _ | failure := answer
  · exact record_bind svc _ (report_emits svc _)
  · exact .pure .silent
  · exact report_emits svc failure

/-- The engine is asked once, and what it answers is told about. -/
theorem launch_tells {ctx : Context} {stop : Bool} {s : σ} {answer : Except Fault (Option RunFailure)}
    (hload : (svc.load ctx stop (svc.note (.launching ctx stop) s).2).1 = answer) (log : List Call) :
    ∃ told result, launch svc.watched ctx stop (s, log) =
        ((launch svc ctx stop s).1, (launch svc ctx stop s).2, log ++ .load ctx stop answer :: told) ∧
      Reports (reported answer) told result ∧
      (launch svc ctx stop s).1 = result.map fun _ ↦ .ofFailure? (reported answer) := by
  -- What is left behind the engine's answer does not depend on the state, so that `Emits` has its log.
  have htell : Emits (fun calls r ↦ ∃ result, Reports (reported answer) calls result ∧
        r = result.map fun _ ↦ RunResult.ofFailure? (reported answer))
      (tell svc.watched answer >>= fun _ ↦ pure (.ofFailure? (reported answer)))
      (tell svc answer >>= fun _ ↦ pure (.ofFailure? (reported answer))) := by
    refine (tell_emits svc answer).bind (fun calls e h ↦ ⟨_, h, rfl⟩) fun calls a h ↦ .pure ?_
    exact ⟨_, by simpa using h, rfl⟩
  obtain ⟨told, hwatched, result, hreports, hresult⟩ := htell
    (svc.load ctx stop (svc.note (.launching ctx stop) s).2).2 (log ++ [.load ctx stop answer])
  rw [List.append_assoc, List.singleton_append] at hwatched
  rw [launch_eq, launch_eq]
  subst hload
  exact ⟨told, result, hwatched, hreports, hresult⟩

theorem launch_emits (ctx : Context) (stop : Bool) :
    Emits (fun calls r ↦ ∃ answer more told, calls = .load ctx stop answer :: more ∧
      Reports (reported answer) more told ∧ r.map (fun _ ↦ ()) = told)
      (launch svc.watched ctx stop) (launch svc ctx stop) := by
  intro s log
  obtain ⟨more, told, hwatched, hreports, hresult⟩ := launch_tells svc (s := s) rfl log
  refine ⟨_, hwatched, _, more, told, rfl, hreports, ?_⟩
  rw [hresult]
  cases told <;> rfl

theorem runOnce_emits (ctx : Context) :
    Emits (Advances env opts (.launch ctx)) (runOnce svc.watched opts ctx)
      (runOnce svc opts ctx) := by
  unfold runOnce
  refine (launch_emits svc ctx opts.stop).bind ?_ ?_
  · intro calls e h
    obtain ⟨answer, more, _, rfl, hr, rfl⟩ := h
    exact .ran ctx hr
  · intro calls result h
    obtain ⟨answer, more, _, rfl, hr, rfl⟩ := h
    exact .pure (by simpa using .ran ctx hr)

theorem commandLoop_emits (ctx : Context) :
    Emits (Advances env opts (.commandLoop ctx)) (commandLoop svc.watched opts ctx)
      (commandLoop svc opts ctx) := by
  unfold commandLoop
  refine Emits.logged_bind _ (svc.processCommands ctx) (.unprocessed ctx) fun close ↦ ?_
  obtain ⟨signal, left⟩ := close
  refine record_bind svc _ ?_
  split
  next h => exact .pure (.ended ctx left (by simpa using h))
  next h =>
    rw [Bool.not_eq_true, Bool.or_eq_false_iff, decide_eq_false_iff_not] at h
    exact .pure (.again ctx left h.1 h.2)

theorem advance_emits (state : State) :
    Emits (Advances env opts state) (advance svc.watched env opts state)
      (advance svc env opts state) := by
  cases state with
  | modeSelect => exact selectMode_emits svc env opts
  | remoteConnect endpoint => exact connectRemote_emits svc env opts endpoint
  | localPrep target => exact prepare_emits svc env opts target
  | validate ctx => exact validate_emits svc env opts ctx
  | launch ctx => exact runOnce_emits svc env opts ctx
  | commandLoop ctx => exact commandLoop_emits svc env opts ctx
  | done t => exact .pure (.done t)

theorem runFrom_succ {steps : Nat} {state : State} (h : ∀ t, state ≠ .done t) :
    runFrom svc env opts (steps + 1) state = (do
      svc.record (.entered state.name)
      runFrom svc env opts steps (← advance svc env opts state)) := by
  cases state <;> first | rfl | exact absurd rfl (h _)

theorem runFrom_step {steps : Nat} {state : State} (h : ∀ t, state ≠ .done t) (s : σ) :
    runFrom svc env opts (steps + 1) state s =
      match advance svc env opts state (svc.note (.entered state.name) s).2 with
      | (.ok next, t) => runFrom svc env opts steps next t
      | (.error e, t) => (.error e, t) := by
  rw [runFrom_succ svc env opts h, Act.bind_apply, record_apply]
  dsimp only
  rw [Act.bind_apply]
  rcases advance svc env opts state _ with ⟨_ | _, _⟩ <;> rfl

/-- The relation has every session in it, whatever the services answer. -/
theorem runFrom_emits (steps : Nat) (state : State) :
    Emits (Runs env opts steps state) (runFrom svc.watched env opts steps state)
      (runFrom svc env opts steps state) := by
  induction steps generalizing state with
  | zero => exact .pure (.cut state)
  | succ steps ih =>
    by_cases hd : ∃ t, state = .done t
    · obtain ⟨t, rfl⟩ := hd
      unfold runFrom
      refine record_bind svc _ ?_
      refine settle_bind svc (fun e ↦ .done steps t (.error e)) ?_
      refine record_bind svc _ ?_
      exact .pure (.done steps t (.ok ()))
    · have hn : ∀ t, state ≠ .done t := fun t ht ↦ hd ⟨t, ht⟩
      rw [runFrom_succ svc.watched env opts hn, runFrom_succ svc env opts hn]
      refine record_bind svc _ ?_
      refine (advance_emits svc env opts state).bind ?_ ?_
      · exact fun calls e h ↦ .fault steps hn h
      · exact fun calls next h ↦ (ih next).mono fun more r h' ↦ .step hn h h'

/-- The calls of a session, as long as it is looked at for `steps` states. -/
def calls (steps : Nat) (s : σ) : List Call := (run svc.watched env opts steps (s, [])).2.2

theorem run_watched (steps : Nat) (s : σ) :
    run svc.watched env opts steps (s, []) =
      ((run svc env opts steps s).1, (run svc env opts steps s).2, calls svc env opts steps s) := by
  obtain ⟨log, he, -⟩ := runFrom_emits svc env opts steps .modeSelect s []
  rw [calls, run, run, he]

theorem calls_runs (steps : Nat) (s : σ) :
    Runs env opts steps .modeSelect (calls svc env opts steps s) (run svc env opts steps s).1 := by
  obtain ⟨log, he, hr⟩ := runFrom_emits svc env opts steps .modeSelect s []
  rw [calls, run, run, he]
  exact hr

end DebugSession.Session
