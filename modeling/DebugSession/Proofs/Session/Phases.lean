import DebugSession.Proofs.Session.Course

/-!
The order of calls in a local session. `Leads` follows a log from phase to phase; what may be called in
a phase, and with what, is in `Step`.
-/

namespace DebugSession

/-- A script is asked for, and nothing that goes before it. -/
def Options.IsLocal (opts : Options) (target : String) : Prop :=
  opts.version = false ∧ opts.help = false ∧ opts.remote = none ∧ opts.target = some target

namespace Call

/-- The answer of the output, if it is the output that is called. -/
def output? : Call → Option (Except IoError Unit)
  | .write _ answer | .flush answer => some answer
  | _ => none

end Call

namespace Session

/-- A machine with nothing on it but its root directory. -/
def Environment.bare : Environment where
  files := {
    currentDir := .ok ⟨[Path.slash]⟩
    isPresent := fun _ ↦ false
    readText := fun _ ↦ .error (.system .noEntry)
    canonical? := fun _ ↦ none }
  version := "1"
  helpText := "help"

/-- The calls of the engine, the checker, the consoles and the connection. -/
def serviceCalls (log : List Call) : List Call := log.filter (·.output?.isNone)

/-- Whose turn it is, and on what context. -/
inductive Phase where
  | opening (ctx : Context) (lines : List String)
  | scripts (ctx : Context) (lines : List String)
  | check (ctx : Context)
  | run (ctx : Context)
  | console (ctx : Context)
  | closing (t : Termination)
  | over (e : Fault)

variable (env : Environment) (opts : Options)

/-- The script of `ctx` is to be checked: the consoles left it, or the last command line did. -/
def Phase.Ready (p : Phase) (ctx : Context) : Prop :=
  p = .check ctx ∨ ∃ left, p = .scripts left [] ∧ ctx = requested opts left

inductive Step : Phase → Call → Phase → Prop
  | output {p : Phase} {c : Call} :
      (∀ e, p ≠ .over e) → c.output? = some (.ok ()) → Step p c p
  | outputFault {p : Phase} {c : Call} {e : IoError} :
      (∀ e, p ≠ .over e) → c.output? = some (.error e) → Step p c (.over (.io e))
  | start (ctx : Context) (lines : List String) :
      Step (.opening ctx lines) (.start (.ok ())) (.scripts ctx lines)
  | startFault (ctx : Context) (lines : List String) (e : Fault) :
      Step (.opening ctx lines) (.start (.error e)) (.over e)
  | execute {signal : Signal} (ctx left : Context) (line : String) (lines : List String) :
      signal ≠ .quit →
      Step (.scripts ctx (line :: lines)) (.execute ctx line (.ok (signal, left)))
        (.scripts left lines)
  | executeQuit (ctx left : Context) (line : String) (lines : List String) :
      Step (.scripts ctx (line :: lines)) (.execute ctx line (.ok (.quit, left))) (.closing .quit)
  | executeFault (ctx : Context) (line : String) (lines : List String) (e : Fault) :
      Step (.scripts ctx (line :: lines)) (.execute ctx line (.error e)) (.over e)
  | passed {p : Phase} {ctx : Context} : p.Ready opts ctx →
      Step p (.validate ctx.target (.ok .passed)) (.run ctx)
  | failed {p : Phase} {ctx : Context} (status : Int) (output : String) : p.Ready opts ctx →
      Step p (.validate ctx.target (.ok (.failed status output))) (.closing (.checkFailed status))
  | timedOut {p : Phase} {ctx : Context} (after : Duration) : p.Ready opts ctx →
      Step p (.validate ctx.target (.ok (.timedOut after))) (.closing .checkTimedOut)
  | validateFault {p : Phase} {ctx : Context} (e : Fault) : p.Ready opts ctx →
      Step p (.validate ctx.target (.error e)) (.over e)
  | load (ctx : Context) (answer : Except Fault (Option RunFailure)) :
      Step (.run ctx) (.load ctx opts.stop answer) (.console ctx)
  | process {signal : Signal} (ctx left : Context) : signal ≠ .quit → opts.quit = false →
      Step (.console ctx) (.process ctx (.ok (signal, left))) (.check left)
  | processQuit {signal : Signal} (ctx left : Context) : signal = .quit ∨ opts.quit = true →
      Step (.console ctx) (.process ctx (.ok (signal, left))) (.closing .quit)
  | processFault (ctx : Context) (e : Fault) :
      Step (.console ctx) (.process ctx (.error e)) (.over e)

inductive Leads : Phase → List Call → Phase → Prop
  | nil (p : Phase) : Leads p [] p
  | cons {p q r : Phase} {c : Call} {log : List Call} :
      Step opts p c q → Leads q log r → Leads p (c :: log) r

namespace Leads

variable {opts} {p q r : Phase} {log more : List Call}

theorem one {c : Call} (h : Step opts p c q) : Leads opts p [c] q := .cons h (.nil q)

theorem append (h : Leads opts p log q) (h' : Leads opts q more r) :
    Leads opts p (log ++ more) r := by
  induction h with
  | nil p => exact h'
  | cons hs _ ih => exact .cons hs (ih h')

theorem split (h : Leads opts p (log ++ more) r) :
    ∃ q, Leads opts p log q ∧ Leads opts q more r := by
  induction log generalizing p with
  | nil => exact ⟨p, .nil p, h⟩
  | cons c log ih =>
    cases h with
    | cons hs h =>
      obtain ⟨q, hl, hm⟩ := ih h
      exact ⟨q, .cons hs hl, hm⟩

theorem of_over {e : Fault} (h : Leads opts (.over e) log q) : log = [] ∧ q = .over e := by
  cases h with
  | nil => exact ⟨rfl, rfl⟩
  | cons hs _ => cases hs with
    | output hp _ | outputFault hp _ => exact absurd rfl (hp e)
    | passed hr | failed _ _ hr | timedOut _ hr | validateFault _ hr =>
      rcases hr with hr | ⟨_, hr, _⟩ <;> cases hr

theorem of_closing {t : Termination} (h : Leads opts (.closing t) log q) :
    serviceCalls log = [] ∧ (q = .closing t ∨ ∃ e, q = .over (.io e)) := by
  induction log with
  | nil =>
    cases h
    exact ⟨rfl, .inl rfl⟩
  | cons c log ih =>
    cases h with
    | cons hs h => cases hs with
      | output _ ho => simpa [serviceCalls, ho] using ih h
      | @outputFault _ _ e _ ho =>
        obtain ⟨rfl, rfl⟩ := of_over h
        exact ⟨by simp [serviceCalls, ho], .inr ⟨e, rfl⟩⟩
      | passed hr | failed _ _ hr | timedOut _ hr | validateFault _ hr =>
        rcases hr with hr | ⟨_, hr, _⟩ <;> cases hr

theorem without_output (h : Leads opts p log q) : ∃ r, Leads opts p (serviceCalls log) r := by
  induction h with
  | nil p => exact ⟨p, .nil p⟩
  | @cons p q _ c log hs h ih =>
    obtain ⟨r, ih⟩ := ih
    cases ho : c.output? with
    | none => exact ⟨r, by simpa [serviceCalls, ho] using .cons hs ih⟩
    | some answer =>
      cases hs <;> first | cases ho | skip
      next => exact ⟨r, by simpa [serviceCalls, ho] using ih⟩
      next =>
        obtain ⟨rfl, rfl⟩ := of_over h
        exact ⟨p, by simpa [serviceCalls, ho] using .nil p⟩

end Leads

variable {env : Environment} {opts : Options}

/-- The command lines of the files that can be read, in order. -/
def commandLines (env : Environment) (paths : List Path) : List String :=
  paths.flatMap fun path ↦
    match InitScript.read env.files path with
    | .ok (some script) => script.commands
    | _ => []

/-- The command lines that a session is to carry out before the first check. -/
def openingLines (env : Environment) (opts : Options) : List String :=
  if opts.rc then commandLines env env.rcPaths else []

/-- Whose turn it is when the command files have ended with `r` and `lines` are left. -/
def Phase.afterScripts (lines : List String) : Except Fault (Bool × Context) → Phase
  | .ok (false, left) => .scripts left lines
  | .ok (true, _) => .closing .quit
  | .error e => .over e

theorem Obeys.leads {lines : List String} {ctx : Context} {calls : List Call}
    {r : Except Fault (Bool × Context)} (h : Obeys lines ctx calls r) (more : List String) :
    Leads opts (.scripts ctx (lines ++ more)) calls (.afterScripts more r) := by
  induction h with
  | nil ctx => exact .nil _
  | fault line lines ctx e => exact .one (.executeFault ctx line _ e)
  | quit line lines ctx left => exact .one (.executeQuit ctx left line _)
  | cons hs _ ih => exact .cons (.execute _ _ _ _ hs) ih

theorem RunsScripts.leads {paths : List Path} {ctx : Context} {calls : List Call}
    {r : Except Fault (Bool × Context)} (h : RunsScripts env paths ctx calls r) :
    Leads opts (.scripts ctx (commandLines env paths)) calls (.afterScripts [] r) := by
  induction h with
  | nil ctx => exact .nil _
  | missing hr _ ih => simpa [commandLines, hr] using ih
  | untold paths ctx e' hr => exact .one (.outputFault (by simp) rfl)
  | unreadable hr _ ih =>
    exact .cons (.output (by simp) rfl) (by simpa [commandLines, hr] using ih)
  | fault paths hr ho | quit paths hr ho =>
    simp only [commandLines, List.flatMap_cons, hr]
    exact ho.leads _
  | ran hr ho _ ih =>
    simp only [commandLines, List.flatMap_cons, hr]
    exact (ho.leads _).append ih

/-- Whose turn it can be in a state of a local session. -/
def Phase.Fits (env : Environment) (opts : Options) (p : Phase) : State → Prop
  | .modeSelect | .remoteConnect _ => False
  | .localPrep target => ∃ script, locate env target = .ok script ∧
      p = .opening (initial opts script) (openingLines env opts)
  | .validate ctx => p.Ready opts ctx
  | .launch ctx => p = .run ctx
  | .commandLoop ctx => p = .console ctx
  | .done t => p = .closing t

/-- Whose turn it can be after a state that goes over into another one or ends in a fault. -/
def Phase.Follows (env : Environment) (opts : Options) (p : Phase) : Except Fault State → Prop
  | .ok next => p.Fits env opts next
  | .error e => p = .over e

theorem Reports.leads {failure? : Option RunFailure} {calls : List Call} {r : Except Fault Unit}
    {ctx : Context} (h : Reports failure? calls r) :
    ∃ q, Leads opts (.console ctx) calls q ∧
      q.Follows env opts (r.map fun _ ↦ .commandLoop ctx) := by
  cases h with
  | silent => exact ⟨_, .nil _, rfl⟩
  | unwritten f e => exact ⟨_, .one (.outputFault (by simp) rfl), rfl⟩
  | written f answer =>
    cases answer with
    | ok => exact ⟨_, .cons (.output (by simp) rfl) (.one (.output (by simp) rfl)), rfl⟩
    | error e => exact ⟨_, .cons (.output (by simp) rfl) (.one (.outputFault (by simp) rfl)), rfl⟩

theorem leads_shown (env : Environment) {t : Termination} {bs : Bytes}
    (answer : Except IoError Unit) :
    ∃ q, Leads opts (.closing t) [.write bs answer] q ∧
      q.Follows env opts (shown (.done t) answer) := by
  cases answer with
  | ok => exact ⟨_, .one (.output (by simp) rfl), rfl⟩
  | error e => exact ⟨_, .one (.outputFault (by simp) rfl), rfl⟩

theorem Advances.leads {state : State} {calls : List Call} {r : Except Fault State} {p : Phase}
    (h : Advances env opts state calls r) (hp : p.Fits env opts state) :
    ∃ q, Leads opts p calls q ∧ q.Follows env opts r := by
  cases h with
  | version | help | badEndpoint | endpoint | target | noTarget => exact hp.elim
  | unannounced | unsettled | connected => exact hp.elim
  | unlocated hl =>
    obtain ⟨script, hs, -⟩ := hp
    cases hl.symm.trans hs
  | unstarted e hl =>
    obtain ⟨script, -, rfl⟩ := hp
    exact ⟨_, .one (.startFault _ _ e), rfl⟩
  | @prepared _ script calls r hl hr =>
    obtain ⟨script', hs, rfl⟩ := hp
    cases hl.symm.trans hs
    have hlines : openingLines env opts =
        commandLines env (if opts.rc then env.rcPaths else []) := by
      unfold openingLines
      split <;> rfl
    refine ⟨_, .cons (.start _ _) (hlines ▸ hr.leads), ?_⟩
    match r with
    | .ok (false, left) => exact .inr ⟨left, rfl, rfl⟩
    | .ok (true, _) => exact rfl
    | .error e => exact rfl
  | unchecked ctx e => exact ⟨_, .one (.validateFault e hp), rfl⟩
  | passed ctx => exact ⟨_, .one (.passed hp), rfl⟩
  | failed ctx status output answer =>
    obtain ⟨q, hq, hr⟩ := leads_shown env answer
    exact ⟨q, .cons (.failed status output hp) hq, hr⟩
  | timedOut ctx after answer =>
    obtain ⟨q, hq, hr⟩ := leads_shown env answer
    exact ⟨q, .cons (.timedOut after hp) hq, hr⟩
  | @ran ctx answer calls r hr =>
    obtain rfl := hp
    obtain ⟨q, hq, hr⟩ := hr.leads
    exact ⟨q, .cons (.load ctx answer) hq, hr⟩
  | unprocessed ctx e =>
    obtain rfl := hp
    exact ⟨_, .one (.processFault ctx e), rfl⟩
  | ended ctx _ hs =>
    obtain rfl := hp
    exact ⟨_, .one (.processQuit ctx _ hs), rfl⟩
  | again ctx _ hs hq =>
    obtain rfl := hp
    exact ⟨_, .one (.process ctx _ hs hq), .inl rfl⟩
  | done t => exact ⟨_, .nil _, hp⟩

/-- A phase that a session can give `r` in. -/
def Phase.Gives (p : Phase) : Except Fault (Option Termination) → Prop
  | .ok none => ∀ e, p ≠ .over e
  | .ok (some t) => p = .closing t
  | .error e => p = .over e

theorem Phase.Fits.ne_over {p : Phase} {state : State} (h : p.Fits env opts state) (e : Fault) :
    p ≠ .over e := by
  rintro rfl
  cases state with
  | modeSelect | remoteConnect => exact h
  | localPrep => obtain ⟨_, _, h⟩ := h; cases h
  | validate => obtain h | ⟨_, h, _⟩ := h <;> cases h
  | launch | commandLoop | done => cases h

theorem Runs.leads {steps : Nat} {state : State} {log : List Call}
    {r : Except Fault (Option Termination)} {p : Phase} (h : Runs env opts steps state log r)
    (hp : p.Fits env opts state) : ∃ q, Leads opts p log q ∧ q.Gives r := by
  induction h generalizing p with
  | cut state => exact ⟨p, .nil p, hp.ne_over⟩
  | done steps t answer =>
    obtain rfl := hp
    cases answer with
    | ok => exact ⟨_, .one (.output (by simp) rfl), rfl⟩
    | error e => exact ⟨_, .one (.outputFault (by simp) rfl), rfl⟩
  | fault steps _ ha =>
    obtain ⟨q, hq, hr⟩ := ha.leads hp
    exact ⟨q, hq, hr⟩
  | step _ ha _ ih =>
    obtain ⟨q, hq, hn⟩ := ha.leads hp
    obtain ⟨q', hq', hr⟩ := ih hn
    exact ⟨q', hq.append hq', hr⟩

theorem Runs.of_select {steps : Nat} {log : List Call} {r : Except Fault (Option Termination)}
    {target : String} (ht : opts.IsLocal target)
    (h : Runs env opts (steps + 1) .modeSelect log r) :
    Runs env opts steps (.localPrep target) log r := by
  obtain ⟨hv, hh, hr, ht⟩ := ht
  have hselect : ∀ calls r, Advances env opts .modeSelect calls r →
      calls = [] ∧ r = .ok (.localPrep target) := by
    intro calls r ha
    cases ha <;> simp_all [Options.endpoint?]
  cases h with
  | fault _ _ ha => cases (hselect _ _ ha).2
  | step _ ha hrun =>
    obtain ⟨rfl, he⟩ := hselect _ _ ha
    cases he
    exact hrun

theorem Runs.of_unlocated {steps : Nat} {log : List Call} {r : Except Fault (Option Termination)}
    {target : String} {e : Fault} (hl : locate env target = .error e)
    (h : Runs env opts steps (.localPrep target) log r) :
    log = [] ∧ r = if steps = 0 then .ok none else .error e := by
  have hnone : ∀ calls r, Advances env opts (.localPrep target) calls r →
      calls = [] ∧ r = .error e := by
    intro calls r ha
    cases ha <;> simp_all
  cases h with
  | cut => exact ⟨rfl, rfl⟩
  | fault _ _ ha =>
    obtain ⟨rfl, he⟩ := hnone _ _ ha
    cases he
    exact ⟨rfl, rfl⟩
  | step _ ha => cases (hnone _ _ ha).2

theorem Runs.local_leads {steps : Nat} {log : List Call} {r : Except Fault (Option Termination)}
    {target : String} (ht : opts.IsLocal target) (h : Runs env opts steps .modeSelect log r) :
    log = [] ∨ ∃ script q, Leads opts (.opening (initial opts script) (openingLines env opts)) log q ∧
      q.Gives r := by
  cases steps with
  | zero =>
    cases h
    exact .inl rfl
  | succ steps =>
    have hrun := h.of_select ht
    cases hl : locate env target with
    | ok script => exact .inr ⟨script, hrun.leads ⟨script, hl, rfl⟩⟩
    | error e => exact .inl (hrun.of_unlocated hl).1

end Session
end DebugSession
