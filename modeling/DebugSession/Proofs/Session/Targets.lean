import DebugSession.Proofs.Host.Check
import DebugSession.Proofs.Path.Absolute
import DebugSession.Proofs.Session.Induction
import DebugSession.Proofs.Session.Phases
import DebugSession.Rehearsal.Stage

/-!
The scripts of a local session. Wherever a script comes from, the options, a search path or a console, its
path is made absolute before anything is asked about it, so that every service is given a tidy one.
-/

namespace DebugSession

variable {σ : Type}

namespace Console

section Tidy

def TidyDir (cwd : Except IoError Path) : Prop := ∀ dir, cwd = .ok dir → dir.IsTidy

variable {cwd : Except IoError Path} {ctx : Context}

theorem perform_isTidy (hcwd : TidyDir cwd) (hctx : ctx.target.IsTidy) {command : Command}
    {reply : Reply} (h : command.perform cwd ctx = .ok reply) : reply.context.target.IsTidy := by
  cases command with
  | nothing | resume | quit | info | help | unknown =>
    cases h
    exact hctx
  | restart script =>
    cases script with
    | none =>
      cases h
      exact hctx
    | some script =>
      rw [Command.perform] at h
      split at h
      · cases h
      next path hpath =>
        cases h
        exact Path.absolute_isTidy hcwd hpath
  | set name value =>
    rw [Command.perform] at h
    split at h
    · cases h
      exact hctx
    · split at h
      · cases h
        exact hctx
      · cases h
        exact hctx

theorem turn_isTidy (hcwd : TidyDir cwd) (hctx : ctx.target.IsTidy) (line : String)
    (screen : Screen) : (turn cwd ctx line screen).context.target.IsTidy := by
  rw [turn]
  split
  · exact hctx
  next reply hreply =>
    have htidy := perform_isTidy hcwd hctx hreply
    split
    · exact htidy
    · exact htidy

theorem execute_isTidy (hcwd : TidyDir cwd) (hctx : ctx.target.IsTidy) (line : String)
    (screen : Screen) (rest : List Bytes) :
    (execute cwd ctx line screen rest).context.target.IsTidy :=
  turn_isTidy hcwd hctx line screen

theorem converse_isTidy (hcwd : TidyDir cwd) (hctx : ctx.target.IsTidy) (screen : Screen)
    (lines : List Bytes) : (converse cwd ctx screen lines).context.target.IsTidy := by
  induction lines generalizing ctx screen with
  | nil =>
    rw [converse]
    split
    · exact hctx
    · exact hctx
  | cons line lines ih =>
    rw [converse]
    split
    · exact hctx
    split
    · exact hctx
    next text _ =>
      have htidy := turn_isTidy hcwd hctx text
      dsimp only
      split
      · exact htidy _
      · exact htidy _
      · exact ih (htidy _) _

end Tidy

end Console

section Consoled

open Console

/-- In a state with `Ok` the consoles are real ones, in a tidy directory if in any, on whatever screen and
with whatever lines; what else is called may answer as it likes. -/
structure Services.Consoled (svc : Services σ) (Ok : σ → Prop) : Prop where
  start : ∀ {s}, Ok s → Ok (svc.start s).2
  load : ∀ ctx stop {s}, Ok s → Ok (svc.load ctx stop s).2
  validate : ∀ script {s}, Ok s → Ok (svc.validate script s).2
  processCommands : ∀ ctx {s}, Ok s → Ok (svc.processCommands ctx s).2 ∧
    ∃ cwd screen lines, TidyDir cwd ∧
      let close := converse cwd ctx screen lines
      (svc.processCommands ctx s).1 = close.result.map fun signal ↦ (signal, close.context)
  executeCommand : ∀ ctx line {s}, Ok s → Ok (svc.executeCommand ctx line s).2 ∧
    ∃ cwd screen rest, TidyDir cwd ∧
      let close := execute cwd ctx line screen rest
      (svc.executeCommand ctx line s).1 = close.result.map fun signal ↦ (signal, close.context)
  connect : ∀ endpoint {s}, Ok s → Ok (svc.connect endpoint s).2
  write : ∀ bs {s}, Ok s → Ok (svc.write bs s).2
  flush : ∀ {s}, Ok s → Ok (svc.flush s).2
  note : ∀ e {s}, Ok s → Ok (svc.note e s).2

namespace Call

/-- The script that a service is given to work on. -/
def script? : Call → Option Path
  | .validate script _ => some script
  | .load ctx _ _ | .execute ctx _ _ | .process ctx _ => some ctx.target
  | _ => none

theorem script?_of_output {c : Call} {answer : Except IoError Unit} (h : c.output? = some answer) :
    c.script? = none := by
  cases c with
  | write | flush => rfl
  | start | execute | validate | load | process | connect => cases h

/-- A context with a tidy script is left with one. -/
def KeepsTidy : Call → Prop
  | .execute ctx _ (.ok (_, left)) | .process ctx (.ok (_, left)) =>
    ctx.target.IsTidy → left.target.IsTidy
  | _ => True

variable {ctx left : Context} (h : ctx.target.IsTidy → left.target.IsTidy)
  (result : Except Fault Signal)

include h

theorem keepsTidy_execute (line : String) :
    KeepsTidy (.execute ctx line (result.map fun signal ↦ (signal, left))) := by
  cases result with
  | error e => trivial
  | ok signal => exact h

theorem keepsTidy_process : KeepsTidy (.process ctx (result.map fun signal ↦ (signal, left))) := by
  cases result with
  | error e => trivial
  | ok signal => exact h

end Call

theorem Services.Consoled.answers {svc : Services σ} {Ok : σ → Prop} (h : svc.Consoled Ok) :
    svc.Answers Ok Call.KeepsTidy where
  start hs := ⟨trivial, h.start hs⟩
  load ctx stop _ hs := ⟨trivial, h.load ctx stop hs⟩
  validate script _ hs := ⟨trivial, h.validate script hs⟩
  processCommands ctx s hs := by
    obtain ⟨hok, cwd, screen, lines, hcwd, hanswer⟩ := h.processCommands ctx hs
    refine ⟨?_, hok⟩
    rw [hanswer]
    exact Call.keepsTidy_process (fun hctx ↦ converse_isTidy hcwd hctx screen lines) _
  executeCommand ctx line s hs := by
    obtain ⟨hok, cwd, screen, rest, hcwd, hanswer⟩ := h.executeCommand ctx line hs
    refine ⟨?_, hok⟩
    rw [hanswer]
    exact Call.keepsTidy_execute (fun hctx ↦ execute_isTidy hcwd hctx line screen rest) _ line
  connect endpoint _ hs := ⟨trivial, h.connect endpoint hs⟩
  write bs _ hs := ⟨trivial, h.write bs hs⟩
  flush hs := ⟨trivial, h.flush hs⟩
  note e _ hs := h.note e hs

end Consoled

section Instances

open Console

def Rehearsal.Staffed (s : Stage) : Prop := ∃ lines color, s.consoles = .real lines color

theorem Rehearsal.cast_consoled {cwd : Except IoError Path} (hcwd : TidyDir cwd) :
    (cast cwd).Consoled Staffed where
  start hs := hs
  load _ _ _ hs := hs
  validate script s hs := by
    obtain ⟨marks, room, outcomes, checks, consoles, refuse, targets, log⟩ := s
    cases checks <;> exact hs
  processCommands ctx s hs := by
    obtain ⟨marks, room, outcomes, checks, consoles, refuse, targets, log⟩ := s
    obtain ⟨lines, color, hconsoles⟩ := hs
    obtain rfl : consoles = .real lines color := hconsoles
    exact ⟨⟨_, _, rfl⟩, cwd, { sink := { room }, color }, lines, hcwd, rfl⟩
  executeCommand ctx line s hs := by
    obtain ⟨marks, room, outcomes, checks, consoles, refuse, targets, log⟩ := s
    obtain ⟨lines, color, hconsoles⟩ := hs
    obtain rfl : consoles = .real lines color := hconsoles
    exact ⟨⟨_, _, rfl⟩, cwd, { sink := { room }, color }, lines, hcwd, rfl⟩
  connect _ _ hs := hs
  write _ _ hs := hs
  flush hs := hs
  note _ _ hs := hs

namespace Host

/-- Each name of the place can stand between two slashes. -/
def TidyPlace (place : Place) : Prop := ∀ name ∈ place, Path.IsStep name ∧ Path.slash ∉ name

theorem Disk.pathOf_spells {place : Place} (h : TidyPlace place) :
    (pathOf place).Spells false place place.isEmpty := by
  have hpieces : (pathOf place).pieces =
      [] :: (place ++ if place.isEmpty then [[]] else []) := by
    have hsplit := Path.pieces_append_slash [] ([Path.slash].intercalate place)
    rw [Path.pieces_nil] at hsplit
    refine hsplit.trans ?_
    cases place with
    | nil => rfl
    | cons name names =>
      rw [Path.pieces, List.splitOn_intercalate Path.slash (fun name hm ↦ (h name hm).2)
        (List.cons_ne_nil _ _)]
      simp
  exact ⟨hpieces, fun name hm ↦ (h name hm).1, List.isEmpty_iff.mpr⟩

theorem Disk.pathOf_isTidy {place : Place} (h : TidyPlace place) : (pathOf place).IsTidy :=
  (pathOf_spells h).isTidy

namespace Machine

variable {m : Machine}

theorem runChild_cwd {order : Order} {outputs : Nat} {child : Child} {m' : Machine}
    (h : m.runChild order outputs = .ok (child, m')) : m'.cwd = m.cwd := by
  obtain ⟨disk, input, -, rfl⟩ := runChild_eq_ok_iff.mp h
  rfl

theorem check_cwd (checker : Checker) (script : Path) : (m.check checker script).2.cwd = m.cwd := by
  rw [check_eq, tryScript]
  dsimp only
  split
  · rfl
  next hrun =>
    have hcwd := runChild_cwd hrun
    split
    · exact hcwd
    · exact hcwd

theorem load_cwd (engine : Engine) (ctx : Context) (stop : Bool) :
    (m.load engine ctx stop).2.cwd = m.cwd := by
  rw [load]
  split
  · rfl
  dsimp only
  split
  · rfl
  next hrun =>
    have hcwd := runChild_cwd hrun
    split
    · exact hcwd
    · exact hcwd

theorem keepLines_cwd (rest : List Bytes) : (m.keepLines rest).cwd = m.cwd := by
  rw [keepLines, consume]
  split
  · rfl
  · rfl

end Machine

def Bench.Tidy (b : Bench) : Prop := TidyPlace b.machine.cwd

theorem Bench.Tidy.of_cwd {b b' : Bench} (hb : b.Tidy) (h : b'.machine.cwd = b.machine.cwd) :
    b'.Tidy := by
  rw [Bench.Tidy, h]
  exact hb

theorem services_consoled (config : Config) : (services config).Consoled Bench.Tidy where
  start {b} hb := by
    refine hb.of_cwd ?_
    dsimp only [services, Bench.start]
    split
    · rfl
    · rfl
  load ctx stop b hb := hb.of_cwd (Machine.load_cwd _ ctx stop)
  validate script b hb := hb.of_cwd (Machine.check_cwd _ script)
  processCommands ctx b hb := by
    refine ⟨hb.of_cwd (Machine.keepLines_cwd _), b.machine.files.currentDir, b.screen, b.lines, ?_, rfl⟩
    rintro dir ⟨⟩
    exact Disk.pathOf_isTidy hb
  executeCommand ctx line b hb := by
    refine ⟨hb.of_cwd (Machine.keepLines_cwd _), b.machine.files.currentDir, b.screen, b.lines, ?_, rfl⟩
    rintro dir ⟨⟩
    exact Disk.pathOf_isTidy hb
  connect endpoint b hb := hb.of_cwd (Machine.keepLines_cwd _)
  write _ _ hb := hb
  flush hb := hb
  note _ _ hb := hb

end Host

end Instances

namespace Session

section Phases

variable {env : Environment} {opts : Options} {p q : Phase}

/-- The script that the next call will be about is tidy. -/
def Phase.Tidy : Phase → Prop
  | .opening ctx _ | .scripts ctx _ | .check ctx | .run ctx | .console ctx => ctx.target.IsTidy
  | .closing _ | .over _ => True

theorem Phase.Tidy.ready (h : p.Tidy) {ctx : Context} (hr : p.Ready opts ctx) :
    ctx.target.IsTidy := by
  obtain rfl | ⟨left, rfl, rfl⟩ := hr
  · exact h
  · exact h

theorem Step.isTidy {c : Call} (h : Step opts p c q) (hc : c.KeepsTidy) (hp : p.Tidy) :
    (∀ script, c.script? = some script → script.IsTidy) ∧ q.Tidy := by
  have hgiven : ∀ path : Path, path.IsTidy → ∀ script, some path = some script → script.IsTidy := by
    intro path hpath script hs
    cases hs
    exact hpath
  cases h with
  | output _ ho =>
    rw [Call.script?_of_output ho]
    exact ⟨nofun, hp⟩
  | outputFault _ ho =>
    rw [Call.script?_of_output ho]
    exact ⟨nofun, trivial⟩
  | start => exact ⟨nofun, hp⟩
  | startFault => exact ⟨nofun, trivial⟩
  | execute => exact ⟨hgiven _ hp, hc hp⟩
  | executeQuit | executeFault => exact ⟨hgiven _ hp, trivial⟩
  | passed hr => exact ⟨hgiven _ (hp.ready hr), hp.ready hr⟩
  | failed _ _ hr | timedOut _ hr | validateFault _ hr => exact ⟨hgiven _ (hp.ready hr), trivial⟩
  | load => exact ⟨hgiven _ hp, hp⟩
  | process => exact ⟨hgiven _ hp, hc hp⟩
  | processQuit | processFault => exact ⟨hgiven _ hp, trivial⟩

theorem Leads.isTidy {log : List Call} (h : Leads opts p log q) (hlog : ∀ c ∈ log, c.KeepsTidy)
    (hp : p.Tidy) : ∀ c ∈ log, ∀ script, c.script? = some script → script.IsTidy := by
  induction h with
  | nil => exact fun _ hc ↦ absurd hc List.not_mem_nil
  | cons hs _ ih =>
    rw [List.forall_mem_cons] at hlog ⊢
    obtain ⟨hgiven, hnext⟩ := hs.isTidy hlog.1 hp
    exact ⟨hgiven, ih hlog.2 hnext⟩

theorem locate_isTidy {target : String} {script : Path}
    (hcwd : Console.TidyDir env.files.currentDir) (h : locate env target = .ok script) :
    script.IsTidy := by
  rw [locate] at h
  cases ha : Path.absolute env.files.currentDir
      (Lookup.resolve env.files.isPresent env.searchPath target) with
  | error e =>
    rw [ha] at h
    cases h
  | ok path =>
    rw [ha] at h
    cases h
    exact Path.absolute_isTidy hcwd ha

end Phases

/-- Whatever the engine and the checker answer and whatever is typed, each script that a local session hands
out is tidy; one that cannot make its own script absolute hands out nothing. -/
theorem local_targets_tidy {svc : Services σ} {Ok : σ → Prop} (h : svc.Consoled Ok)
    (env : Environment) {opts : Options} {target : String} (hlocal : opts.IsLocal target)
    (hcwd : Console.TidyDir env.files.currentDir) {s : σ} (hs : Ok s) (steps : Nat) :
    (∀ c ∈ calls svc env opts steps s, ∀ script, c.script? = some script → script.IsTidy) ∧
    ∀ e, locate env target = .error e →
      (run svc env opts (steps + 2) s).1 = .error e ∧ calls svc env opts (steps + 2) s = [] := by
  refine ⟨?_, ?_⟩
  · have hruns := calls_runs svc env opts steps s
    have hkeeps := h.answers.calls_good env opts steps hs
    generalize calls svc env opts steps s = log at hruns hkeeps ⊢
    have hempty : log = [] → ∀ c ∈ log, ∀ script, c.script? = some script → script.IsTidy := by
      rintro rfl c hc
      exact absurd hc List.not_mem_nil
    cases steps with
    | zero =>
      cases hruns
      exact hempty rfl
    | succ steps =>
      have hrest := hruns.of_select hlocal
      cases hl : locate env target with
      | error e => exact hempty (hrest.of_unlocated hl).1
      | ok script =>
        -- The script is tidy at first, and the consoles are all that can change it.
        have htidy := locate_isTidy hcwd hl
        obtain ⟨q, hleads, -⟩ := hrest.leads ⟨script, hl, rfl⟩
        exact hleads.isTidy hkeeps htidy
  · intro e hl
    have hrest := (calls_runs svc env opts (steps + 2) s).of_select hlocal
    obtain ⟨hcalls, hresult⟩ := hrest.of_unlocated hl
    exact ⟨hresult, hcalls⟩

/-- A script of the search path, one of a command file and one that is typed, all named from
`/home/dev`; and a script without a name. -/
theorem local_targets_tidy_three_origins :
    let dir : Path := .ofText "/home/dev"
    let svc := Rehearsal.cast (.ok dir)
    let files : Files := { Environment.bare.files with
      currentDir := .ok dir
      isPresent := fun path ↦ path = .ofText "./bin/app"
      readText := fun path ↦
        if path = .ofText "/rc" then .ok "r .//test" else .error (.system .noEntry) }
    let env : Environment := { Environment.bare with
      files, searchPath := some (Utf8.encode "none::./bin"), rcPaths := [.ofText "/rc"] }
    let opts (target : String) : Options := { target := some target, rc := true }
    let stage : Rehearsal.Stage :=
      { consoles := .real [Utf8.encode "r ../lib/.//main/\n", Utf8.encode "q\n"] false }
    (∀ target, (opts target).IsLocal target) ∧ Console.TidyDir (.ok dir) ∧ Rehearsal.Staffed stage ∧
      (calls svc env (opts "app") 20 stage).filterMap Call.script? =
        ["/home/dev/bin/app", "/home/dev/test", "/home/dev/test", "/home/dev/test",
          "/home/dev/../lib/main/", "/home/dev/../lib/main/", "/home/dev/../lib/main/"].map .ofText ∧
      (∀ c ∈ calls svc env (opts "app") 20 stage, ∀ script, c.script? = some script → script.IsTidy) ∧
      calls svc env (opts "") 20 stage = [] := by
  intro dir svc files env opts stage
  have hdir : Console.TidyDir (.ok dir) := by
    rintro _ ⟨⟩
    have hnowhere : Console.TidyDir (.error .notUtf8) := nofun
    have hsame : Path.absolute (.error .notUtf8) dir = .ok dir := rfl
    exact Path.absolute_isTidy hnowhere hsame
  have hlocal : ∀ target, (opts target).IsLocal target := fun target ↦ ⟨rfl, rfl, rfl, rfl⟩
  have hstage : Rehearsal.Staffed stage := ⟨_, _, rfl⟩
  have h (target : String) :=
    local_targets_tidy (Rehearsal.cast_consoled hdir) env (hlocal target) hdir hstage
  refine ⟨hlocal, hdir, hstage, by decide +kernel, (h "app" 20).1, ?_⟩
  exact ((h "" 18).2 (.setup (.io .emptyPath)) rfl).2

end Session

end DebugSession
