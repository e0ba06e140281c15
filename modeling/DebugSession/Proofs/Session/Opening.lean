import DebugSession.Proofs.Console.Limit
import DebugSession.Proofs.Session.Output
import DebugSession.Proofs.Session.Phases
import DebugSession.Rehearsal.Stage

/-!
The opening of a local session, from its first state to the first check. The command files that there are
make a list of things to do, and the session does them in order up to the first line that quits.
-/

namespace DebugSession

variable {σ : Type}

namespace Session

open Console

section Equation

variable (svc : Services σ) (env : Environment) (opts : Options)

/-- What a local session does before its first check. -/
def opening (target : String) (script : Path) : Act σ State := do
  svc.record (.entered State.modeSelect.name)
  svc.record (.entered (State.localPrep target).name)
  svc.record (.targetResolved target script)
  svc.start
  let close ← if opts.rc then runScripts svc env env.rcPaths (initial opts script)
    else pure (false, initial opts script)
  return entry opts close

theorem run_local {target : String} {script : Path} (hlocal : opts.IsLocal target)
    (hscript : locate env target = .ok script) (steps : Nat) :
    run svc env opts (steps + 2) = opening svc env opts target script >>= runFrom svc env opts steps := by
  obtain ⟨hv, hh, hr, ht⟩ := hlocal
  have hselect : selectMode svc env opts = pure (.localPrep target) := by
    simp [selectMode, hv, hh, hr, ht, Options.endpoint?]
  have hlocate : (ExceptT.mk (pure (locate env target)) : Act σ Path) = pure script := by
    rw [hscript]
    rfl
  have hprepare : prepare svc env opts target = (do
      svc.record (.targetResolved target script)
      svc.start
      let close ← if opts.rc then runScripts svc env env.rcPaths (initial opts script)
        else pure (false, initial opts script)
      return entry opts close) := by
    rw [prepare, hlocate, pure_bind]
    congr 1
    funext _
    congr 1
    funext _
    split
    · refine congrArg (runScripts svc env env.rcPaths (initial opts script) >>= ·) ?_
      funext close
      obtain ⟨_ | _, left⟩ := close <;> rfl
    · rfl
  rw [run, runFrom_succ svc env opts (by simp), advance, hselect, pure_bind,
    runFrom_succ svc env opts (by simp), advance, hprepare, opening]
  simp only [bind_assoc]

/-- A session that is to check a script does that first. -/
theorem Runs.check_first {env : Environment} {opts : Options} {steps : Nat} {ctx : Context}
    {log : List Call} {r : Except Fault (Option Termination)}
    (h : Runs env opts (steps + 1) (.validate ctx) log r) :
    ∃ answer more, log = .validate ctx.target answer :: more := by
  have hfirst : ∀ calls r, Advances env opts (.validate ctx) calls r →
      ∃ answer more, calls = .validate ctx.target answer :: more := by
    intro calls r ha
    cases ha <;> exact ⟨_, _, rfl⟩
  cases h with
  | fault _ _ ha => exact hfirst _ _ ha
  | step _ ha _ =>
    obtain ⟨answer, more, rfl⟩ := hfirst _ _ ha
    exact ⟨answer, more ++ _, rfl⟩

end Equation

section Deeds

/-- One thing that a session does in its opening. -/
inductive Deed where
  | start
  | line (text : String)
  | tell (bs : Bytes)
  | other
  deriving DecidableEq

def Deed.line? : Deed → Option String
  | .line text => some text
  | _ => none

def Deed.quits (d : Deed) : Bool := d.line?.any Console.quits

def deed : Call → Deed
  | .start _ => .start
  | .execute _ line _ => .line line
  | .write bs _ => .tell bs
  | _ => .other

/-- What is to be done about a command file: its lines, nothing if it is not there, and telling so if it
cannot be read. -/
def fileDeeds (files : Files) (path : Path) : List Deed :=
  match files.readText path with
  | .ok content => (InitScript.parse path content).commands.map .line
  | .error (.system .noEntry) => []
  | .error e =>
    [.tell (Utf8.encode ("Couldn't read init script " ++ path.text ++ ": " ++ e.message ++ "\n"))]

def scriptDeeds (files : Files) (paths : List Path) : List Deed := paths.flatMap (fileDeeds files)

theorem read_error {files : Files} {path : Path} {e : IoError} (h : files.readText path = .error e)
    (he : e ≠ .system .noEntry) : InitScript.read files path = .error e := by
  rw [InitScript.read, h]
  split
  next h => cases h
  next h => exact absurd (Except.error.inj h) he
  next h => rw [Except.error.inj h]

theorem fileDeeds_eq (files : Files) (path : Path) : fileDeeds files path =
    match InitScript.read files path with
    | .ok none => []
    | .ok (some script) => script.commands.map .line
    | .error e => [.tell (Utf8.encode (Notice.unreadableScript path e).text)] := by
  unfold fileDeeds
  split
  next content h => rw [InitScript.read, h]
  next h => rw [InitScript.read, h]
  next e he h =>
    rw [read_error h he]
    rfl

theorem lines_scriptDeeds (env : Environment) (paths : List Path) :
    (scriptDeeds env.files paths).filterMap Deed.line? = commandLines env paths := by
  rw [scriptDeeds, List.filterMap_flatMap, commandLines]
  congr 1
  funext path
  rw [fileDeeds_eq]
  obtain e | _ | script := InitScript.read env.files path
  · rfl
  · rfl
  · exact (List.filterMap_map ..).trans List.filterMap_some

theorem any_quits (deeds : List Deed) :
    deeds.any Deed.quits = (deeds.filterMap Deed.line?).any quits := by
  rw [List.any_filterMap]
  congr 1

/-- `log` is how a session that finds `ctx` does what is to be done, up to the first line that quits, and
`close` tells whether there is one and what it leaves. -/
structure Carried (cwd : Path) (ctx : Context) (deeds : List Deed) (log : List Call)
    (close : Bool × Context) : Prop where
  done : log.map deed = upTo Deed.quits deeds
  quit : deeds.any Deed.quits = close.1
  heeds : close.1 = false → Heeds cwd ctx (deeds.filterMap Deed.line?) close.2

namespace Carried

variable {cwd : Path} {ctx left : Context} {deeds deeds' : List Deed} {log log' : List Call}
  {close : Bool × Context}

theorem nil (cwd : Path) (ctx : Context) : Carried cwd ctx [] [] (false, ctx) :=
  ⟨rfl, rfl, fun _ ↦ .nil cwd ctx⟩

theorem line {text : String} {signal : Signal} (hq : signal = .quit ↔ quits text)
    (hh : Heeds cwd ctx [text] left) :
    Carried cwd ctx [.line text] [.execute ctx text (.ok (signal, left))] (signal = .quit, left) where
  done := by
    rw [upTo]
    split <;> rfl
  quit := by
    rw [List.any_cons, List.any_nil, Bool.or_false, Bool.eq_iff_iff, decide_eq_true_eq]
    exact hq.symm
  heeds _ := hh

theorem tell (ctx : Context) (bs : Bytes) :
    Carried cwd ctx [.tell bs] [.write bs (.ok ())] (false, ctx) :=
  ⟨rfl, rfl, fun _ ↦ .nil cwd ctx⟩

theorem append (h : Carried cwd ctx deeds log (false, left))
    (h' : Carried cwd left deeds' log' close) :
    Carried cwd ctx (deeds ++ deeds') (log ++ log') close where
  done := by
    rw [List.map_append, h.done, h'.done, upTo_eq_self h.quit, upTo_append, h.quit]
    exact (if_neg Bool.false_ne_true).symm
  quit := by rw [List.any_append, h.quit, h'.quit, Bool.false_or]
  heeds hc := by
    rw [List.filterMap_append]
    exact (h.heeds rfl).append (h'.heeds hc)

theorem cut (h : Carried cwd ctx deeds log (true, left)) (deeds' : List Deed) :
    Carried cwd ctx (deeds ++ deeds') log (true, left) where
  done := by rw [h.done, upTo_append, h.quit, if_pos rfl]
  quit := by rw [List.any_append, h.quit, Bool.true_or]
  heeds hc := nomatch hc

end Carried

end Deeds

end Session

/-- Services that open a session without a fault: the engine starts, the output takes what it is given, and
command lines are carried out by real consoles in the directory `cwd`, on a screen that takes everything. -/
structure Services.Opens (svc : Services σ) (cwd : Except IoError Path) (Ok : σ → Prop) : Prop where
  start : ∀ {s}, Ok s → (svc.start s).1 = .ok () ∧ Ok (svc.start s).2
  executeCommand : ∀ ctx line {s}, Ok s →
    ∃ (screen : Console.Screen) (rest : List Bytes), screen.sink.room = none ∧
      let close := Console.execute cwd ctx line screen rest
      (svc.executeCommand ctx line s).1 = close.result.map (fun signal ↦ (signal, close.context)) ∧
        Ok (svc.executeCommand ctx line s).2
  output : svc.Takes fun _ ↦ Ok

namespace Services.Opens

open Session Console

variable {svc : Services σ} {env : Environment} {opts : Options} {cwd : Path} {Ok : σ → Prop}
  {log : List Call} (h : svc.Opens (.ok cwd) Ok)

include h

theorem start_gives : Gives (At (fun _ ↦ Ok) [] log) svc.watched.start fun _ ↦
    At (fun _ ↦ Ok) [] (log ++ [.start (.ok ())]) := by
  have hstart : Gives (At (fun _ ↦ Ok) [] log) svc.watched.start fun _ p ↦
      True ∧ At (fun _ ↦ Ok) [] (log ++ [.start (.ok ())]) p := by
    refine At.logged_gives .start fun hs ↦ ?_
    obtain ⟨hanswer, hs⟩ := h.start hs
    exact ⟨(), hanswer, trivial, hs⟩
  exact hstart.mono fun _ _ hp ↦ hp.2

theorem executeCommand_gives (ctx : Context) (line : String) :
    Gives (At (fun _ ↦ Ok) [] log) (svc.watched.executeCommand ctx line) fun close p ↦
      ((close.1 = .quit ↔ quits line) ∧ Heeds cwd ctx [line] close.2) ∧
        At (fun _ ↦ Ok) [] (log ++ [.execute ctx line (.ok close)]) p := by
  refine At.logged_gives (.execute ctx line) fun hs ↦ ?_
  obtain ⟨screen, rest, hroom, hanswer, hs⟩ := h.executeCommand ctx line hs
  obtain ⟨reply, hreply, hheeds, hquit, -⟩ := perform_ofLine cwd ctx line
  obtain ⟨after, hturn, -⟩ := turn_unlimited hroom hreply
  rw [execute, hturn] at hanswer
  refine ⟨_, hanswer, ⟨?_, hheeds⟩, hs⟩
  rw [← hquit]
  rcases reply.signal with _ | signal <;> simp

theorem runCommands_gives (lines : List String) (ctx : Context) :
    Gives (At (fun _ ↦ Ok) [] log) (runCommands svc.watched lines ctx) fun close p ↦
      ∃ more, Carried cwd ctx (lines.map .line) more close ∧
        At (fun _ ↦ Ok) [] (log ++ more) p := by
  induction lines generalizing ctx log with
  | nil => exact .pure fun p hp ↦ ⟨[], .nil cwd ctx, by rwa [List.append_nil]⟩
  | cons line lines ih =>
    unfold runCommands
    refine (h.executeCommand_gives ctx line).bind fun answer p hp ↦ ?_
    obtain ⟨signal, left⟩ := answer
    obtain ⟨⟨hquit, hheeds⟩, hp⟩ := hp
    have hone := Carried.line hquit hheeds
    dsimp only
    split
    next hs =>
      subst hs
      exact ⟨_, p, rfl, _, hone.cut (lines.map .line), hp⟩
    next hs =>
      obtain ⟨close, q, hrun, more, hmore, hq⟩ := ih left p hp
      rw [decide_eq_false hs] at hone
      refine ⟨close, q, hrun, _, hone.append hmore, ?_⟩
      rwa [← List.append_assoc]

theorem runScripts_gives (env : Environment) (paths : List Path) (ctx : Context) :
    Gives (At (fun _ ↦ Ok) [] log) (runScripts svc.watched env paths ctx) fun close p ↦
      ∃ more, Carried cwd ctx (scriptDeeds env.files paths) more close ∧
        At (fun _ ↦ Ok) [] (log ++ more) p := by
  -- On the files, with any log before them: a file adds its calls, and the others go on behind those.
  induction paths generalizing ctx log with
  | nil => exact .pure fun p hp ↦ ⟨[], .nil cwd ctx, by rwa [List.append_nil]⟩
  | cons path paths ih =>
    have hdeeds : scriptDeeds env.files (path :: paths) =
        fileDeeds env.files path ++ scriptDeeds env.files paths := List.flatMap_cons
    rw [hdeeds, fileDeeds_eq]
    unfold runScripts
    split
    next hr => simpa only [hr, List.nil_append] using ih ctx
    next e hr =>
      simp only [hr]
      refine (h.output.record_gives _).bind fun _ ↦ (h.output.say_gives _).bind fun _ p hp ↦ ?_
      obtain ⟨close, q, hrun, more, hmore, hq⟩ := ih ctx p hp
      refine ⟨close, q, hrun, _, (Carried.tell ctx _).append hmore, ?_⟩
      rwa [← List.append_assoc]
    next script hr =>
      simp only [hr]
      refine (h.output.record_gives _).bind fun _ ↦ ?_
      refine (h.runCommands_gives script.commands ctx).bind fun answer p hp ↦ ?_
      obtain ⟨quit, left⟩ := answer
      obtain ⟨more, hmore, hp⟩ := hp
      cases quit with
      | true => exact ⟨_, p, rfl, more, hmore.cut _, hp⟩
      | false =>
        obtain ⟨close, q, hrun, rest, hrest, hq⟩ := ih left p hp
        refine ⟨close, q, hrun, _, hmore.append hrest, ?_⟩
        rwa [← List.append_assoc]

theorem opening_gives (env : Environment) (opts : Options) (target : String) (script : Path)
    (hrc : opts.rc = true) : Gives (At (fun _ ↦ Ok) [] [])
      (opening svc.watched env opts target script) fun next p ↦
        ∃ close more, next = entry opts close ∧
          Carried cwd (initial opts script) (scriptDeeds env.files env.rcPaths) more close ∧
          At (fun _ ↦ Ok) [] (.start (.ok ()) :: more) p := by
  unfold opening
  rw [if_pos hrc]
  refine (h.output.record_gives _).bind fun _ ↦ (h.output.record_gives _).bind fun _ ↦
    (h.output.record_gives _).bind fun _ ↦ h.start_gives.bind fun _ ↦
      (h.runScripts_gives env env.rcPaths _).bind fun close ↦ .pure fun p hp ↦ ?_
  obtain ⟨more, hmore, hp⟩ := hp
  exact ⟨close, more, rfl, hmore, hp⟩

end Services.Opens

/-- The opening of a session that is to run command files. Their lines are carried out in order, with a
notice for each file that cannot be read, up to the first line that quits. If there is one the session ends
without a check. Otherwise it goes on with the check of the script that the lines named last, on the
settings and the arguments of the options. -/
theorem Session.opening_runs_command_files {svc : Services σ} {Ok : σ → Prop} {env : Environment}
    {opts : Options} {target : String} {script cwd : Path} (hlocal : opts.IsLocal target)
    (hrc : opts.rc = true) (hcwd : env.files.currentDir = .ok cwd)
    (hscript : locate env target = .ok script) (h : svc.Opens env.files.currentDir Ok) {s : σ}
    (hs : Ok s) :
    ∃ log t, log.map deed = .start :: upTo Deed.quits (scriptDeeds env.files env.rcPaths) ∧
      ((∃ line ∈ commandLines env env.rcPaths, Console.quits line) → ∀ steps,
        (run svc env opts (steps + 3) s).1 = .ok (some .quit) ∧
        calls svc env opts (steps + 3) s = log ++ [.flush (.ok ())]) ∧
      ((∀ line ∈ commandLines env env.rcPaths, Console.quits line = false) → ∃ ctx : Context,
        ctx.settings = { postMortem := opts.postMortem, linetrace := opts.trace } ∧
        ctx.scriptArgs = opts.scriptArgs ∧
        (match Console.latest Console.switch? (commandLines env env.rcPaths) with
          | none => ctx.target = script
          | some named => Path.absolute (.ok cwd) (.ofText named) = .ok ctx.target) ∧
        ∀ steps,
          run svc.watched env opts (steps + 2) (s, []) =
            runFrom svc.watched env opts steps (.validate ctx) (t, log) ∧
          ∃ answer more, calls svc env opts (steps + 3) s =
            log ++ .validate ctx.target answer :: more) := by
  rw [hcwd] at h
  obtain ⟨next, ⟨t, log⟩, hopening, close, more, rfl, hcarried, ht, rfl⟩ :=
    h.opening_gives env opts target script hrc (s, []) ⟨hs, rfl⟩
  have hrun (steps : Nat) : run svc.watched env opts (steps + 2) (s, []) =
      runFrom svc.watched env opts steps (entry opts close) (t, .start (.ok ()) :: more) := by
    rw [run_local svc.watched env opts hlocal hscript]
    exact Act.bind_ok hopening _
  obtain ⟨quit, left⟩ := close
  have hquit : (commandLines env env.rcPaths).any Console.quits = quit := by
    rw [← lines_scriptDeeds, ← any_quits]
    exact hcarried.quit
  have hheeds := hcarried.heeds
  rw [lines_scriptDeeds] at hheeds
  refine ⟨.start (.ok ()) :: more, t, congrArg (List.cons Deed.start) hcarried.done,
    fun hany steps ↦ ?_, fun hall ↦ ?_⟩
  · obtain rfl : true = quit := (List.any_eq_true.mpr hany).symm.trans hquit
    have hat : At (fun _ ↦ Ok) [] (.start (.ok ()) :: more) (t, .start (.ok ()) :: more) := ⟨ht, rfl⟩
    obtain ⟨_, p, hfinish, rfl, -, hlog⟩ := h.output.finish_gives .quit _ hat
    have hend := (hrun (steps + 1)).trans hfinish
    rw [run_watched, Prod.mk.injEq] at hend
    exact ⟨hend.1, (congrArg Prod.snd hend.2).trans hlog⟩
  · have hnone : (commandLines env env.rcPaths).any Console.quits = false :=
      List.any_eq_false.mpr fun line hl ↦ by simp [hall line hl]
    obtain rfl : false = quit := hnone.symm.trans hquit
    refine ⟨requested opts left, rfl, (hheeds rfl).args, (hheeds rfl).target, fun steps ↦
      ⟨hrun steps, ?_⟩⟩
    obtain ⟨later, hlater, hruns⟩ := runFrom_emits svc env opts (steps + 1)
      (.validate (requested opts left)) t (.start (.ok ()) :: more)
    obtain ⟨answer, rest, rfl⟩ := hruns.check_first
    exact ⟨answer, rest, congrArg (·.2.2) ((hrun (steps + 1)).trans hlater)⟩

namespace Rehearsal

/-- Stages with real consoles and an output without limit. -/
def Attended (s : Stage) : Prop := s.room = none ∧ ∃ lines color, s.consoles = .real lines color

theorem cast_opens (cwd : Except IoError Path) : (cast cwd).Opens cwd Attended where
  start h := ⟨rfl, h⟩
  executeCommand ctx line s h := by
    obtain ⟨marks, room, outcomes, checks, consoles, refuse, targets, log⟩ := s
    obtain ⟨hroom, lines, color, hconsoles⟩ := h
    obtain rfl : room = none := hroom
    obtain rfl : consoles = .real lines color := hconsoles
    exact ⟨{ color }, lines, rfl, rfl, (Console.execute_limited (n := 0) rfl line lines).1, _, _, rfl⟩
  output := {
    write := fun bs _ s h ↦ by
      have hw : (cast cwd).write bs s = _ := Stage.write_unlimited bs h.1
      rw [hw]
      exact ⟨rfl, h⟩
    flush := fun h ↦ ⟨rfl, h⟩
    note := fun _ _ _ h ↦ h }

end Rehearsal

/-- Two sets of files on one machine: a missing one, one that is a directory and one that names another
script, and one that quits in front of that. -/
theorem Session.opening_runs_command_files_switch_and_quit :
    let svc := Rehearsal.cast (.ok ⟨[Path.slash]⟩)
    let files : Files := { Environment.bare.files with
      readText := fun path ↦
        if path = .ofText "/switch" then .ok "# first\n set post_mortem on\nr other\nc\n"
        else if path = .ofText "/quit" then .ok "\nexit\nr never\n"
        else if path = .ofText "/dir" then .error (.system .isADirectory)
        else .error (.system .noEntry) }
    let env (names : List String) : Environment :=
      { Environment.bare with files, rcPaths := names.map .ofText }
    let opts : Options := { target := some "app", rc := true, trace := true, scriptArgs := ["-x"] }
    let stage : Rehearsal.Stage := { consoles := .real [] false }
    opts.IsLocal "app" ∧ Rehearsal.Attended stage ∧
      (∃ log t, log.map deed = [.start,
          .tell (Utf8.encode "Couldn't read init script /dir: Is a directory (os error 21)\n"),
          .line "set post_mortem on", .line "r other", .line "c"] ∧
        ∀ steps, run svc.watched (env ["/none", "/dir", "/switch"]) opts (steps + 2) (stage, []) =
          runFrom svc.watched (env ["/none", "/dir", "/switch"]) opts steps
            (.validate ⟨.ofText "/other", ⟨false, true⟩, ["-x"]⟩) (t, log)) ∧
      (∃ log, log.map deed = [.start, .line "exit"] ∧ ∀ steps,
        (run svc (env ["/quit", "/switch"]) opts (steps + 3) stage).1 = .ok (some .quit) ∧
        calls svc (env ["/quit", "/switch"]) opts (steps + 3) stage = log ++ [.flush (.ok ())]) := by
  intro svc files env opts stage
  have hlocal : opts.IsLocal "app" := ⟨rfl, rfl, rfl, rfl⟩
  have hstage : Rehearsal.Attended stage := ⟨rfl, _, _, rfl⟩
  have hscript (names : List String) : locate (env names) "app" = .ok (.ofText "/app") := rfl
  have h (names : List String) := opening_runs_command_files hlocal rfl rfl (hscript names)
    (Rehearsal.cast_opens (.ok ⟨[Path.slash]⟩)) hstage
  refine ⟨hlocal, hstage, ?_, ?_⟩
  · obtain ⟨log, t, hlog, -, hall⟩ := h ["/none", "/dir", "/switch"]
    obtain ⟨⟨script, settings, args⟩, hsettings, hargs, htarget, hrun⟩ := hall (by decide +kernel)
    have hnamed : Console.latest Console.switch? (commandLines (env ["/none", "/dir", "/switch"])
        (env ["/none", "/dir", "/switch"]).rcPaths) = some "other" := by
      decide +kernel
    rw [hnamed] at htarget
    cases htarget
    cases hsettings
    cases hargs
    exact ⟨log, t, hlog.trans (by decide +kernel), fun steps ↦ (hrun steps).1⟩
  · obtain ⟨log, t, hlog, hany, -⟩ := h ["/quit", "/switch"]
    exact ⟨log, hlog.trans (by decide +kernel), hany ⟨"exit", by decide +kernel, by decide +kernel⟩⟩

end DebugSession
