import DebugSession.Proofs.Session.Phases
import DebugSession.Rehearsal.Stage

/-!
What a local session calls, in which order and with what: `Disciplined` says so of its log as such, and
`Attends` of what comes after a run.
-/

namespace DebugSession.Session

/-- A call without what goes with it. -/
inductive Label where
  | start
  | execute (line : String)
  | validate
  | load
  | process
  | connect
  deriving DecidableEq

def label? : Call → Option Label
  | .start _ => some .start
  | .execute _ line _ => some (.execute line)
  | .validate _ _ => some .validate
  | .load _ _ _ => some .load
  | .process _ _ => some .process
  | .connect _ _ => some .connect
  | .write _ _ | .flush _ => none

theorem label?_of_output {c : Call} {answer : Except IoError Unit} (h : c.output? = some answer) :
    label? c = none := by
  cases c <;> first | rfl | cases h

/-- How many rounds of a check, a run and a command session. -/
def rounds (n : Nat) : List Label := (List.replicate n [.validate, .load, .process]).flatten

theorem rounds_succ (n : Nat) : rounds (n + 1) = .validate :: .load :: .process :: rounds n := by
  simp [rounds, List.replicate_succ]

/-- How a session ends that makes no call of a service after this one. -/
def ending? (opts : Options) : Call → Option (Except Fault Termination)
  | .start (.error e) | .execute _ _ (.error e) | .validate _ (.error e) | .process _ (.error e) =>
    some (.error e)
  | .write _ (.error e) | .flush (.error e) => some (.error (.io e))
  | .execute _ _ (.ok (.quit, _)) => some (.ok .quit)
  | .validate _ (.ok (.failed status _)) => some (.ok (.checkFailed status))
  | .validate _ (.ok (.timedOut _)) => some (.ok .checkTimedOut)
  | .process _ (.ok (signal, _)) =>
    if signal = .quit ∨ opts.quit = true then some (.ok .quit) else none
  | _ => none

/-- A fault is what the session gives. Otherwise, unless the output fails at the end, `t` is. -/
def EndsIn (r : Except Fault (Option Termination)) : Except Fault Termination → Prop
  | .error e => r = .error e
  | .ok t => ∀ t', r = .ok (some t') → t' = t

def Phase.ofEnding : Except Fault Termination → Phase
  | .ok t => .closing t
  | .error e => .over e

/-- The order of the calls in a log whose session gave `r`: the engine is prepared, the command lines
are carried out, and then come rounds. A run has the context that was checked, a command session that
of its run, and the next round what the command session left. -/
structure Disciplined (env : Environment) (opts : Options) (log : List Call)
    (r : Except Fault (Option Termination)) : Prop where
  course : ∃ n, log.filterMap label? <+:
    .start :: (openingLines env opts).map .execute ++ rounds n
  started_once : (log.filterMap label?).count .start ≤ 1
  checked : ∀ pre ctx stop answer post, serviceCalls log = pre ++ .load ctx stop answer :: post →
    stop = opts.stop ∧ ∃ before, pre = before ++ [.validate ctx.target (.ok .passed)]
  processed : ∀ pre ctx answer post, serviceCalls log = pre ++ .process ctx answer :: post →
    ∃ before result, pre = before ++ [.load ctx opts.stop result]
  carried : ∀ pre ctx signal left script verdict post, serviceCalls log =
      pre ++ .process ctx (.ok (signal, left)) :: .validate script verdict :: post →
    script = left.target ∧
      ∀ ctx' stop answer more, post = .load ctx' stop answer :: more → ctx' = left
  ended : ∀ pre c post ending, log = pre ++ c :: post → ending? opts c = some ending →
    serviceCalls post = [] ∧ EndsIn r ending

namespace Leads

variable {opts : Options} {p q : Phase} {log : List Call}

/-- The calls to come from a phase on, if there is time for `n` more rounds. -/
def course (n : Nat) : Phase → List Label
  | .opening _ lines => .start :: lines.map .execute ++ rounds n
  | .scripts _ lines => lines.map .execute ++ rounds n
  | .check _ => rounds n
  | .run _ => .load :: .process :: rounds n
  | .console _ => .process :: rounds n
  | .closing _ | .over _ => []

theorem labels (h : Leads opts p log q) : ∃ n, log.filterMap label? <+: course n p := by
  induction h with
  | nil p => exact ⟨0, List.nil_prefix⟩
  | @cons p q r c log hs h ih =>
    obtain ⟨n, ih⟩ := ih
    cases hs with
    | output _ ho => exact ⟨n, by rwa [List.filterMap_cons_none (label?_of_output ho)]⟩
    | outputFault _ ho =>
      obtain ⟨rfl, -⟩ := of_over h
      exact ⟨n, by simp [List.filterMap_cons_none (label?_of_output ho)]⟩
    | start | startFault | execute | executeQuit | executeFault =>
      exact ⟨n, by simpa [label?, course] using ih.trans (by simp [course])⟩
    | passed hr | failed _ _ hr | timedOut _ hr | validateFault _ hr =>
      refine ⟨n + 1, ?_⟩
      have hc : course (n + 1) p = .validate :: .load :: .process :: rounds n := by
        obtain rfl | ⟨left, rfl, -⟩ := hr <;> simp [course, rounds_succ]
      rw [hc]
      simpa [label?] using ih.trans (by simp [course])
    | load | process | processQuit | processFault =>
      exact ⟨n, by simpa [label?, course] using ih.trans (by simp [course])⟩

theorem of_ending {c : Call} {ending : Except Fault Termination} (h : Leads opts p (c :: log) q)
    (he : ending? opts c = some ending) : Leads opts (.ofEnding ending) log q := by
  cases h with
  | cons hs h => cases hs with
    | output _ ho => cases c <;> cases ho <;> cases he
    | outputFault _ ho => cases c <;> cases ho <;> cases he <;> exact h
    | @execute signal _ _ _ _ hn => cases signal <;> first | exact absurd rfl hn | cases he
    | process _ _ hn hq => simp [ending?, hn, hq] at he
    | processQuit _ _ hn =>
      obtain rfl : .ok .quit = ending := by simpa [ending?, hn] using he
      exact h
    | start | passed | load => cases he
    | startFault | executeQuit | executeFault | failed | timedOut | validateFault | processFault =>
      cases he
      exact h

theorem ended {c : Call} {pre post : List Call} {r : Except Fault (Option Termination)}
    {ending : Except Fault Termination} (h : Leads opts p (pre ++ c :: post) q) (hr : q.Gives r)
    (he : ending? opts c = some ending) : serviceCalls post = [] ∧ EndsIn r ending := by
  obtain ⟨m, -, h⟩ := h.split
  have h := h.of_ending he
  cases ending with
  | error e =>
    obtain ⟨rfl, rfl⟩ := of_over h
    refine ⟨rfl, ?_⟩
    match r, hr with
    | .ok none, hr => exact absurd rfl (hr e)
    | .error _, hr => cases hr; exact rfl
  | ok t =>
    obtain ⟨hp, hq⟩ := of_closing h
    refine ⟨hp, ?_⟩
    rintro t' rfl
    obtain rfl | ⟨e, rfl⟩ := hq <;> cases hr
    rfl

theorem last (h : Leads opts p log q) (hp : p ≠ q) (hlog : serviceCalls log = log) :
    ∃ before m c, log = before ++ [c] ∧ c.output? = none ∧ Step opts m c q := by
  obtain rfl | ⟨before, c, rfl⟩ := List.eq_nil_or_concat log
  · cases h
    exact absurd rfl hp
  rw [List.concat_eq_append] at h hlog ⊢
  have hc : c.output? = none := by
    have hm : c ∈ serviceCalls (before ++ [c]) := by rw [hlog]; simp
    simpa using (List.mem_filter.mp hm).2
  obtain ⟨m, -, h⟩ := h.split
  cases h with
  | cons hs h =>
    cases h
    exact ⟨before, m, c, rfl, hc, hs⟩

theorem last_of_run {ctx : Context} (h : Leads opts p log (.run ctx)) (hp : p ≠ .run ctx)
    (hlog : serviceCalls log = log) :
    ∃ before, log = before ++ [.validate ctx.target (.ok .passed)] := by
  obtain ⟨before, m, c, rfl, hc, hs⟩ := h.last hp hlog
  cases hs with
  | output _ ho => cases hc.symm.trans ho
  | passed => exact ⟨before, rfl⟩

theorem last_of_console {ctx : Context} (h : Leads opts p log (.console ctx))
    (hp : p ≠ .console ctx) (hlog : serviceCalls log = log) :
    ∃ before answer, log = before ++ [.load ctx opts.stop answer] := by
  obtain ⟨before, m, c, rfl, hc, hs⟩ := h.last hp hlog
  cases hs with
  | output _ ho => cases hc.symm.trans ho
  | load => exact ⟨before, _, rfl⟩

end Leads

section Attended

variable {env : Environment} {opts : Options}

theorem Obeys.load_notMem {lines : List String} {ctx : Context} {calls : List Call}
    {r : Except Fault (Bool × Context)} (h : Obeys lines ctx calls r) (ctx' : Context) (stop : Bool)
    (answer : Except Fault (Option RunFailure)) : .load ctx' stop answer ∉ calls := by
  induction h with
  | nil | fault | quit => simp
  | cons _ _ ih => simpa using ih

theorem RunsScripts.load_notMem {paths : List Path} {ctx : Context} {calls : List Call}
    {r : Except Fault (Bool × Context)} (h : RunsScripts env paths ctx calls r) (ctx' : Context)
    (stop : Bool) (answer : Except Fault (Option RunFailure)) :
    .load ctx' stop answer ∉ calls := by
  induction h with
  | nil | untold => simp
  | missing _ _ ih => exact ih
  | unreadable _ _ ih => simpa using ih
  | fault _ _ ho | quit _ _ ho => exact ho.load_notMem ctx' stop answer
  | ran _ ho _ ih => simpa using ⟨ho.load_notMem ctx' stop answer, ih⟩

theorem Reports.load_notMem {failure? : Option RunFailure} {calls : List Call}
    {r : Except Fault Unit} (h : Reports failure? calls r) (ctx : Context) (stop : Bool)
    (answer : Except Fault (Option RunFailure)) : .load ctx stop answer ∉ calls := by
  cases h <;> simp

theorem Advances.of_load {state : State} {pre post : List Call} {r : Except Fault State}
    {ctx : Context} {stop : Bool} {answer : Except Fault (Option RunFailure)}
    (h : Advances env opts state (pre ++ .load ctx stop answer :: post) r) :
    pre = [] ∧ ∃ told, Reports (reported answer) post told ∧
      r = told.map fun _ ↦ .commandLoop ctx := by
  generalize hl : pre ++ .load ctx stop answer :: post = calls at h
  have hm : .load ctx stop answer ∈ calls := by simp [← hl]
  cases h with
  | ran ctx' hr =>
    cases pre with
    | nil =>
      cases hl
      exact ⟨rfl, _, hr, rfl⟩
    | cons c pre =>
      rw [List.cons_append, List.cons.injEq] at hl
      exact absurd (by simp [← hl.2]) (hr.load_notMem ctx stop answer)
  | prepared _ hr => exact absurd (by simpa using hm) (hr.load_notMem ctx stop answer)
  | _ => simp at hm

theorem Runs.of_commandLoop {steps : Nat} {ctx : Context} {log : List Call}
    {r : Except Fault (Option Termination)}
    (h : Runs env opts (steps + 1) (.commandLoop ctx) log r) :
    ∃ answer rest, log = .process ctx answer :: rest := by
  have ha : ∀ calls r, Advances env opts (.commandLoop ctx) calls r →
      ∃ answer, calls = [.process ctx answer] := by
    intro calls r ha
    cases ha <;> exact ⟨_, rfl⟩
  cases h with
  | fault _ _ h =>
    obtain ⟨answer, rfl⟩ := ha _ _ h
    exact ⟨answer, [], rfl⟩
  | step _ h =>
    obtain ⟨answer, rfl⟩ := ha _ _ h
    exact ⟨answer, _, rfl⟩

/-- `rest` is what follows a run that was answered with `answer`: its report, and a command session
if the report could be written. -/
def Attends (ctx : Context) (answer : Except Fault (Option RunFailure)) (rest : List Call) : Prop :=
  ∃ told more r, rest = told ++ more ∧ Reports (reported answer) told r ∧
    match r with
    | .ok () => ∃ processed later, more = .process ctx processed :: later
    | .error _ => more = []

variable {σ : Type} (svc : Services σ)

theorem Runs.load_notMem {steps : Nat} {t : Termination} {log : List Call}
    {r : Except Fault (Option Termination)} (h : Runs env opts steps (.done t) log r) (ctx : Context)
    (stop : Bool) (answer : Except Fault (Option RunFailure)) : .load ctx stop answer ∉ log := by
  cases h with
  | cut | done => simp
  | fault _ hn _ | step hn _ _ => exact absurd rfl (hn t)

/-- One state of a watched session, and the rest behind it. -/
theorem runFrom_watched {state : State} (hn : ∀ t, state ≠ .done t) (s : σ) (log : List Call) :
    ∃ calls answer t, Advances env opts state calls answer ∧
      ∀ steps, runFrom svc.watched env opts (steps + 1) state (s, log) =
        match answer with
        | .ok next => runFrom svc.watched env opts steps next (t, log ++ calls)
        | .error e => (.error e, t, log ++ calls) := by
  have hnote : svc.watched.note (.entered state.name) (s, log) =
      ((), (svc.note (.entered state.name) s).2, log) := rfl
  obtain ⟨calls, he, ha⟩ :=
    advance_emits svc env opts state (svc.note (.entered state.name) s).2 log
  generalize advance svc env opts state (svc.note (.entered state.name) s).2 = x at he ha
  refine ⟨calls, x.1, x.2, ha, fun steps ↦ ?_⟩
  rw [runFrom_step svc.watched env opts hn, hnote, he]
  obtain ⟨_ | _, _⟩ := x <;> rfl

theorem runFrom_attends (steps : Nat) (state : State) (s : σ) (log pre post : List Call)
    (ctx : Context) (stop : Bool) (answer : Except Fault (Option RunFailure))
    (h : (runFrom svc.watched env opts steps state (s, log)).2.2 =
      log ++ (pre ++ .load ctx stop answer :: post)) :
    ∃ rest, (runFrom svc.watched env opts (steps + 1) state (s, log)).2.2 =
      log ++ (pre ++ .load ctx stop answer :: rest) ∧ Attends ctx answer rest := by
  induction steps generalizing state s log pre with
  | zero => simp [runFrom, Act.pure_apply] at h
  | succ steps ih =>
    by_cases hd : ∃ t, state = .done t
    · obtain ⟨t, rfl⟩ := hd
      obtain ⟨calls, he, hr⟩ := runFrom_emits svc env opts (steps + 1) (.done t) s log
      rw [he] at h
      obtain rfl := List.append_cancel_left h
      exact absurd (by simp) (hr.load_notMem ctx stop answer)
    have hn : ∀ t, state ≠ .done t := fun t ht ↦ hd ⟨t, ht⟩
    obtain ⟨calls, next, t, ha, hstep⟩ := runFrom_watched svc hn s log
    rw [hstep] at h ⊢
    cases next with
    | error e =>
      obtain rfl := List.append_cancel_left h
      obtain ⟨rfl, told, hr, he⟩ := ha.of_load
      cases told with
      | ok => cases he
      | error e => exact ⟨post, rfl, post, [], _, by simp, hr, rfl⟩
    | ok next =>
      dsimp only at h ⊢
      obtain ⟨more, hm, -⟩ := runFrom_emits svc env opts steps next t (log ++ calls)
      rw [hm, List.append_assoc] at h
      have hl := List.append_cancel_left h
      -- The run belongs to a later state, or it is the call that this state makes.
      obtain ⟨mid, rfl, hmid⟩ | ⟨mid, rfl, hmid⟩ := List.append_eq_append_iff.mp hl
      · obtain ⟨rest, hrest, hatt⟩ := ih next t (log ++ calls) mid (by rw [hm, hmid])
        exact ⟨rest, by rw [hrest]; simp, hatt⟩
      cases mid with
      | nil =>
        obtain ⟨rest, hrest, hatt⟩ := ih next t (log ++ (pre ++ [])) [] (by rw [hm, hmid]; simp)
        exact ⟨rest, by rw [hrest]; simp, hatt⟩
      | cons c mid =>
        obtain ⟨rfl, -⟩ := List.cons.inj hmid
        obtain ⟨rfl, told, hr, he⟩ := ha.of_load
        cases told with
        | error e => cases he
        | ok =>
          cases he
          -- The state after a run is the one for commands, and the further step is spent in it.
          obtain ⟨later, hlater, hruns⟩ := runFrom_emits svc env opts (steps + 1)
            (.commandLoop ctx) t (log ++ ([] ++ .load ctx stop answer :: mid))
          obtain ⟨processed, tail, rfl⟩ := hruns.of_commandLoop
          exact ⟨mid ++ .process ctx processed :: tail, by rw [hlater]; simp,
            mid, _, _, rfl, hr, processed, tail, rfl⟩

end Attended

section Disciplined

variable {env : Environment} {opts : Options} {p q : Phase}

theorem Step.of_load {ctx : Context} {stop : Bool} {answer : Except Fault (Option RunFailure)}
    (h : Step opts p (.load ctx stop answer) q) : p = .run ctx ∧ stop = opts.stop := by
  cases h with
  | output _ ho | outputFault _ ho => cases ho
  | load => exact ⟨rfl, rfl⟩

theorem Step.of_process {ctx : Context} {answer : Except Fault (Signal × Context)}
    (h : Step opts p (.process ctx answer) q) : p = .console ctx := by
  cases h with
  | output _ ho | outputFault _ ho => cases ho
  | process | processQuit | processFault => rfl

theorem Step.of_check {left : Context} {script : Path} {verdict : Except Fault Verdict}
    (h : Step opts (.check left) (.validate script verdict) q) :
    script = left.target ∧ (q = .run left ∨ ∃ ending, q = .ofEnding ending) := by
  have hleft : ∀ ctx, Phase.Ready opts (.check left) ctx → ctx = left := by
    rintro ctx (h | ⟨_, h, _⟩) <;> cases h
    rfl
  cases h with
  | output _ ho | outputFault _ ho => cases ho
  | passed hr => exact hleft _ hr ▸ ⟨rfl, .inl rfl⟩
  | failed status _ hr => exact hleft _ hr ▸ ⟨rfl, .inr ⟨.ok (.checkFailed status), rfl⟩⟩
  | timedOut _ hr => exact hleft _ hr ▸ ⟨rfl, .inr ⟨.ok .checkTimedOut, rfl⟩⟩
  | validateFault e hr => exact hleft _ hr ▸ ⟨rfl, .inr ⟨.error e, rfl⟩⟩

theorem Step.after_process {ctx left : Context} {signal : Signal}
    (h : Step opts p (.process ctx (.ok (signal, left))) q) :
    q = .check left ∨ q = .ofEnding (.ok .quit) := by
  cases h with
  | output _ ho | outputFault _ ho => cases ho
  | process => exact .inl rfl
  | processQuit => exact .inr rfl

theorem Leads.of_ofEnding {ending : Except Fault Termination} {log : List Call}
    (h : Leads opts (.ofEnding ending) log q) : serviceCalls log = [] := by
  cases ending with
  | ok t => exact h.of_closing.1
  | error e => rw [h.of_over.1]; rfl

theorem serviceCalls_left {log pre post : List Call} (h : serviceCalls log = pre ++ post) :
    serviceCalls pre = pre := by
  refine List.filter_eq_self.mpr fun c hc ↦ ?_
  have hm : c ∈ serviceCalls log := by rw [h]; exact List.mem_append_left _ hc
  exact (List.mem_filter.mp hm).2

theorem Disciplined.nil (env : Environment) (opts : Options)
    (r : Except Fault (Option Termination)) : Disciplined env opts [] r where
  course := ⟨0, List.nil_prefix⟩
  started_once := Nat.zero_le 1
  checked _ _ _ _ _ he := by simp [serviceCalls] at he
  processed _ _ _ _ he := by simp [serviceCalls] at he
  carried _ _ _ _ _ _ _ he := by simp [serviceCalls] at he
  ended _ _ _ _ he := by simp at he

theorem Leads.disciplined {script : Path} {log : List Call}
    {r : Except Fault (Option Termination)}
    (h : Leads opts (.opening (initial opts script) (openingLines env opts)) log q)
    (hr : q.Gives r) : Disciplined env opts log r where
  course := h.labels
  started_once := by
    obtain ⟨n, hn⟩ := h.labels
    refine Nat.le_trans (hn.sublist.count_le _) ?_
    have hlines : Label.start ∉ (openingLines env opts).map .execute := by simp
    have hrounds : Label.start ∉ rounds n := by simp [rounds]
    simp [Leads.course, List.count_eq_zero.mpr hlines, List.count_eq_zero.mpr hrounds]
  checked := by
    intro pre ctx stop answer post he
    obtain ⟨_, hs⟩ := h.without_output
    rw [he] at hs
    obtain ⟨m, hpre, hs⟩ := hs.split
    cases hs with
    | cons hstep _ =>
      obtain ⟨rfl, hstop⟩ := hstep.of_load
      exact ⟨hstop, hpre.last_of_run nofun (serviceCalls_left he)⟩
  processed := by
    intro pre ctx answer post he
    obtain ⟨_, hs⟩ := h.without_output
    rw [he] at hs
    obtain ⟨m, hpre, hs⟩ := hs.split
    cases hs with
    | cons hstep _ =>
      obtain rfl := hstep.of_process
      exact hpre.last_of_console nofun (serviceCalls_left he)
  carried := by
    intro pre ctx signal left script verdict post he
    obtain ⟨_, hs⟩ := h.without_output
    rw [he] at hs
    obtain ⟨m, -, hs⟩ := hs.split
    obtain _ | ⟨hprocess, _ | ⟨hvalidate, hpost⟩⟩ := hs
    obtain rfl | rfl := hprocess.after_process
    · obtain ⟨hscript, hnext⟩ := hvalidate.of_check
      refine ⟨hscript, fun ctx' stop answer more hmore ↦ ?_⟩
      subst hmore
      obtain rfl | ⟨ending, rfl⟩ := hnext
      · obtain _ | ⟨hload, _⟩ := hpost
        cases hload.of_load.1
        rfl
      · cases hpost.of_ofEnding
    · have hnone := (Leads.cons hvalidate hpost).of_ofEnding
      cases hnone
  ended := fun pre c post ending he hend ↦ (he ▸ h).ended hr hend

end Disciplined

variable {σ : Type}

/-- What every local session does, whatever the services answer: the watch of its calls changes nothing,
their order is `Disciplined`, and each run is attended to. -/
theorem local_calls_in_order (svc : Services σ) (env : Environment) {opts : Options}
    {target : String} (h : opts.IsLocal target) (steps : Nat) (s : σ) :
    run svc.watched env opts steps (s, []) =
      ((run svc env opts steps s).1, (run svc env opts steps s).2, calls svc env opts steps s) ∧
    Disciplined env opts (calls svc env opts steps s) (run svc env opts steps s).1 ∧
    ∀ pre ctx stop answer post, calls svc env opts steps s = pre ++ .load ctx stop answer :: post →
      ∃ rest, calls svc env opts (steps + 1) s = pre ++ .load ctx stop answer :: rest ∧
        Attends ctx answer rest := by
  refine ⟨run_watched svc env opts steps s, ?_, fun pre ctx stop answer post he ↦ ?_⟩
  · obtain hnil | ⟨script, q, hq, hr⟩ := (calls_runs svc env opts steps s).local_leads h
    · rw [hnil]
      exact .nil env opts _
    · exact hq.disciplined hr
  · exact runFrom_attends svc steps .modeSelect s [] pre post ctx stop answer he

/-- Two rounds, of which the engine fails the first. -/
theorem local_calls_in_order_two_rounds :
    let svc := Rehearsal.cast (.ok ⟨[Path.slash]⟩)
    let opts : Options := { target := some "app" }
    let stage : Rehearsal.Stage :=
      { outcomes := [.fault "gone"], consoles := .scripted [.restart] }
    opts.IsLocal "app" ∧ (serviceCalls (calls svc .bare opts 12 stage)).length = 7 ∧
      Disciplined .bare opts (calls svc .bare opts 12 stage) (run svc .bare opts 12 stage).1 :=
  ⟨⟨rfl, rfl, rfl, rfl⟩, by decide +kernel,
    (local_calls_in_order (Rehearsal.cast (.ok ⟨[Path.slash]⟩)) .bare ⟨rfl, rfl, rfl, rfl⟩ 12
      { outcomes := [.fault "gone"], consoles := .scripted [.restart] }).2.1⟩

end DebugSession.Session
