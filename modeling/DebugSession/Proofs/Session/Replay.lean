import DebugSession.Proofs.Console.Dialogue
import DebugSession.Proofs.Session.Output
import DebugSession.Proofs.Session.Phases
import DebugSession.Rehearsal.Stage

/-!
A local session as a replay of what is typed. If nothing fails and every check passes, the text that the
consoles read decides by itself how often the script runs, and on which context each time.
-/

namespace DebugSession

variable {σ α β : Type}

namespace Session

open Console

section Launches

/-- The contexts of the runs that a log has in it, in order, and whether each was to stop. -/
def launches (log : List Call) : List (Context × Bool) :=
  log.filterMap fun c ↦
    match c with
    | .load ctx stop _ => some (ctx, stop)
    | _ => none

/-- The lines up to the first that quits, which is one of them, or all of them. -/
def played : List String → List String
  | [] => []
  | line :: lines => if quits line then [line] else line :: played lines

/-- `contexts` are those of the runs that `lines` ask for, beginning with `ctx`: one run at the start and
one for each line that runs a script again, on a context that heeds the lines up to it. -/
structure Launches (cwd : Path) (ctx : Context) (lines : List String) (contexts : List Context) :
    Prop where
  count : contexts.length = 1 + lines.countP relaunches
  context : ∀ before, before <+: lines → (∀ line, before.getLast? = some line → relaunches line) →
    ∃ launched, contexts[before.countP relaunches]? = some launched ∧ Heeds cwd ctx before launched

variable {cwd : Path} {ctx left : Context} {heard rest lines : List String} {line : String}
  {contexts : List Context}

theorem played_append (h : ∀ l ∈ heard, quits l = false) (rest : List String) :
    played (heard ++ rest) = heard ++ played rest := by
  induction heard with
  | nil => rfl
  | cons line heard ih =>
    rw [List.cons_append, played, if_neg (by simp [h line List.mem_cons_self]),
      ih fun l hl ↦ h l (List.mem_cons_of_mem line hl), List.cons_append]

theorem played_all (h : ∀ l ∈ heard, quits l = false) : played heard = heard := by
  have ha := played_append h []
  rwa [played, List.append_nil] at ha

theorem played_quit (h : ∀ l ∈ heard, quits l = false) (hl : quits line) (rest : List String) :
    played (heard ++ [line] ++ rest) = heard ++ [line] := by
  rw [List.append_assoc, played_append h, List.singleton_append, played, if_pos hl]

theorem played_relaunch (h : ∀ l ∈ heard, quits l = false) (hl : quits line = false)
    (rest : List String) : played (heard ++ [line] ++ rest) = heard ++ [line] ++ played rest := by
  rw [List.append_assoc, played_append h, List.singleton_append, played, if_neg (by simp [hl]),
    List.append_assoc, List.singleton_append]

theorem eq_nil_of_last {before : List String} (h : ∀ l ∈ before, relaunches l = false)
    (hlast : ∀ line, before.getLast? = some line → relaunches line) : before = [] := by
  cases hb : before.getLast? with
  | none => exact List.getLast?_eq_none_iff.mp hb
  | some line =>
    have hl := hlast line hb
    rw [h line (List.mem_of_getLast? hb)] at hl
    cases hl

theorem Launches.one (cwd : Path) (ctx : Context) (h : ∀ l ∈ lines, relaunches l = false) :
    Launches cwd ctx lines [ctx] where
  count := by
    rw [List.countP_eq_zero.mpr fun l hl ↦ by simp [h l hl]]
    rfl
  context before hb hlast := by
    obtain rfl := eq_nil_of_last (fun l hl ↦ h l (hb.subset hl)) hlast
    exact ⟨ctx, rfl, .nil cwd ctx⟩

theorem Launches.cons (hheard : ∀ l ∈ heard, relaunches l = false) (hline : relaunches line)
    (hleft : Heeds cwd ctx (heard ++ [line]) left) (h : Launches cwd left rest contexts) :
    Launches cwd ctx (heard ++ [line] ++ rest) (ctx :: contexts) := by
  have hzero : heard.countP relaunches = 0 :=
    List.countP_eq_zero.mpr fun l hl ↦ by simp [hheard l hl]
  have hone : (heard ++ [line]).countP relaunches = 1 := by
    rw [List.countP_append, hzero, List.countP_cons_of_pos hline]
    rfl
  refine ⟨by rw [List.length_cons, h.count, List.countP_append, hone]; omega, ?_⟩
  intro before hb hlast
  have hsplit : before = [] ∨ ∃ more, before = heard ++ [line] ++ more ∧ more <+: rest := by
    obtain ⟨tail, ht⟩ := hb
    obtain ⟨gap, hgap, -⟩ | ⟨more, rfl, hmore⟩ := List.append_eq_append_iff.mp ht
    · obtain rfl | hheads := List.prefix_concat_iff.mp ⟨gap, hgap.symm⟩
      · exact .inr ⟨[], by simp, List.nil_prefix⟩
      · exact .inl (eq_nil_of_last (fun l hl ↦ hheard l (hheads.subset hl)) hlast)
    · exact .inr ⟨more, rfl, tail, hmore.symm⟩
  obtain rfl | ⟨more, rfl, hmore⟩ := hsplit
  · exact ⟨ctx, rfl, .nil cwd ctx⟩
  · have hlast' : ∀ l, more.getLast? = some l → relaunches l := by
      intro l hl
      exact hlast l (by rw [List.getLast?_append, hl]; rfl)
    obtain ⟨launched, hl, hh⟩ := h.context more hmore hlast'
    refine ⟨launched, ?_, hleft.append hh⟩
    rw [List.countP_append, hone, Nat.add_comm, List.getElem?_cons_succ]
    exact hl

theorem Launches.of_quit (cwd : Path) (ctx : Context) (h : Closes heard rest .quit) :
    Launches cwd ctx (played (heard ++ rest)) [ctx] ∧
      (heard ++ rest).drop (played (heard ++ rest)).length = rest := by
  cases h with
  | exhausted hc =>
    have hp := played_all fun l hl ↦ (hc l hl).1
    rw [List.append_nil, hp]
    exact ⟨.one cwd ctx fun l hl ↦ (hc l hl).2, List.drop_length⟩
  | @quit heard _ line hc hl =>
    rw [played_quit (fun l hl ↦ (hc l hl).1) hl]
    refine ⟨.one cwd ctx fun l hm ↦ ?_, List.drop_left⟩
    obtain hm | hm := List.mem_append.mp hm
    · exact (hc l hm).2
    · rw [List.mem_singleton] at hm
      exact hm ▸ not_relaunches_of_quits hl
  | relaunch _ _ _ hs => exact absurd rfl hs

theorem Launches.of_relaunch {signal : Signal} (h : Closes heard rest signal)
    (hs : signal ≠ .quit) (hleft : Heeds cwd ctx heard left)
    (hrest : Launches cwd left (played rest) contexts) :
    Launches cwd ctx (played (heard ++ rest)) (ctx :: contexts) ∧
      (heard ++ rest).drop (played (heard ++ rest)).length = rest.drop (played rest).length := by
  cases h with
  | exhausted | quit => exact absurd rfl hs
  | @relaunch heard _ line _ hc hq hl _ =>
    rw [played_relaunch (fun l hl ↦ (hc l hl).1) hq]
    exact ⟨.cons (fun l hl ↦ (hc l hl).2) hl hleft hrest, by simp⟩

end Launches

section Replay

/-- Services that never fail, with real consoles in the directory `cwd` that read one text between them:
in a state with `At`, its lines are still to be read. A check passes; a run of the engine may end as it
likes. -/
structure Replays (svc : Services σ) (cwd : Except IoError Path) (At : σ → List Bytes → Prop) :
    Prop where
  start : ∀ {s lines}, At s lines → (svc.start s).1 = .ok () ∧ At (svc.start s).2 lines
  load : ∀ ctx stop {s lines}, At s lines → At (svc.load ctx stop s).2 lines
  validate : ∀ script {s lines}, At s lines →
    (svc.validate script s).1 = .ok .passed ∧ At (svc.validate script s).2 lines
  write : ∀ bs {s lines}, At s lines → (svc.write bs s).1 = .ok () ∧ At (svc.write bs s).2 lines
  flush : ∀ {s lines}, At s lines → (svc.flush s).1 = .ok () ∧ At (svc.flush s).2 lines
  note : ∀ e {s lines}, At s lines → At (svc.note e s).2 lines
  processCommands : ∀ ctx {s lines}, At s lines → ∃ screen : Screen, screen.sink.room = none ∧
    let close := converse cwd ctx screen lines
    (svc.processCommands ctx s).1 = close.result.map (fun signal ↦ (signal, close.context)) ∧
      At (svc.processCommands ctx s).2 close.rest

/-- Where a session goes from its command sessions when there is no limit to them. -/
def afterCommands (signal : Signal) (left : Context) : State :=
  if signal = .quit then .done .quit else .validate left

/-- The lines `lines` are still to be read, and the runs so far were `runs`. -/
def Stands (At : σ → List Bytes → Prop) (lines : List String) (runs : List (Context × Bool))
    (p : σ × List Call) : Prop :=
  At p.1 (lines.map Utf8.encode) ∧ launches p.2 = runs

variable {svc : Services σ} {env : Environment} {opts : Options} {cwd : Path}
  {At : σ → List Bytes → Prop} {lines : List String} {runs : List (Context × Bool)}

theorem launches_append (log more : List Call) :
    launches (log ++ more) = launches log ++ launches more :=
  List.filterMap_append

theorem Stands.logged {p : σ × List Call} {s : σ} {rest : List String} (h : Stands At lines runs p)
    (hs : At s (rest.map Utf8.encode)) (c : Call) :
    Stands At rest (runs ++ launches [c]) (s, p.2 ++ [c]) :=
  ⟨hs, by rw [launches_append, h.2]⟩

theorem Stands.logged_other {p : σ × List Call} {s : σ} {rest : List String} {c : Call}
    (h : Stands At lines runs p) (hs : At s (rest.map Utf8.encode)) (hc : launches [c] = []) :
    Stands At rest runs (s, p.2 ++ [c]) := by
  have hl := h.logged hs c
  rwa [hc, List.append_nil] at hl

theorem logged_gives {act : Act σ α} {call : Except Fault α → Call} {a : α}
    (ha : ∀ {s}, At s (lines.map Utf8.encode) →
      (act s).1 = .ok a ∧ At (act s).2 (lines.map Utf8.encode))
    (hc : launches [call (.ok a)] = []) :
    Gives (Stands At lines runs) (logged call act) fun b p ↦ b = a ∧ Stands At lines runs p := by
  intro p hp
  obtain ⟨hanswer, hs⟩ := ha hp.1
  have he : logged call act p = ((act p.1).1, (act p.1).2, p.2 ++ [call (act p.1).1]) := rfl
  rw [hanswer] at he
  exact ⟨a, _, he, rfl, hp.logged_other hs hc⟩

namespace Replays

variable (h : Replays svc (.ok cwd) At)

include h

theorem record_gives (e : Event) :
    Gives (Stands At lines runs) (svc.watched.record e) fun _ ↦ Stands At lines runs :=
  fun _ hp ↦ ⟨(), _, rfl, h.note e hp.1, hp.2⟩

theorem say_gives (text : String) :
    Gives (Stands At lines runs) (svc.watched.say text) fun _ ↦ Stands At lines runs := by
  intro p hp
  obtain ⟨hw, hs⟩ := h.write (Utf8.encode text) hp.1
  have he : svc.watched.say text p = ((svc.write (Utf8.encode text) p.1).1.mapError .io,
      (svc.write (Utf8.encode text) p.1).2,
      p.2 ++ [.write (Utf8.encode text) (svc.write (Utf8.encode text) p.1).1]) := rfl
  rw [hw] at he
  exact ⟨(), _, he, hp.logged_other hs rfl⟩

theorem settle_gives :
    Gives (Stands At lines runs) svc.watched.settle fun _ ↦ Stands At lines runs := by
  intro p hp
  obtain ⟨hf, hs⟩ := h.flush hp.1
  have he : svc.watched.settle p = ((svc.flush p.1).1.mapError .io, (svc.flush p.1).2,
      p.2 ++ [.flush (svc.flush p.1).1]) := rfl
  rw [hf] at he
  exact ⟨(), _, he, hp.logged_other hs rfl⟩

theorem outcome_gives (ctx : Context) (stop : Bool) :
    Gives (Stands At lines runs) (outcome svc.watched ctx stop) fun _ ↦
      Stands At lines (runs ++ [(ctx, stop)]) := by
  have hload : Gives (Stands At lines runs) (svc.watched.load ctx stop).attempt fun _ ↦
      Stands At lines (runs ++ [(ctx, stop)]) := by
    intro p hp
    exact ⟨_, _, rfl, hp.logged (h.load ctx stop hp.1) (.load ctx stop _)⟩
  unfold outcome
  refine hload.bind fun answer ↦ ?_
  cases answer with
  | ok failure? => exact .pure fun _ hs ↦ hs
  | error e => exact (h.record_gives _).bind fun _ ↦ .pure fun _ hs ↦ hs

theorem launch_gives (ctx : Context) (stop : Bool) :
    Gives (Stands At lines runs) (launch svc.watched ctx stop) fun _ ↦
      Stands At lines (runs ++ [(ctx, stop)]) := by
  unfold launch
  refine (h.record_gives _).bind fun _ ↦ (h.outcome_gives ctx stop).bind fun result ↦ ?_
  cases result with
  | completed => exact .pure fun _ hs ↦ hs
  | failed failure =>
    exact (h.say_gives _).bind fun _ ↦ h.settle_gives.bind fun _ ↦ .pure fun _ hs ↦ hs

variable (env opts)

theorem prepare_gives {target : String} {script : Path} (hl : locate env target = .ok script)
    (hrc : opts.rc = false) :
    Gives (Stands At lines runs) (advance svc.watched env opts (.localPrep target)) fun next p ↦
      next = .validate (requested opts (initial opts script)) ∧ Stands At lines runs p := by
  have hlocate : Gives (Stands At lines runs)
      (ExceptT.mk (pure (locate env target)) : Act (σ × List Call) Path) fun a p ↦
        a = script ∧ Stands At lines runs p := by
    intro p hp
    exact ⟨script, p, by rw [hl]; rfl, rfl, hp⟩
  have hstart : Gives (Stands At lines runs) svc.watched.start fun _ p ↦ _ ∧ Stands At lines runs p :=
    logged_gives h.start rfl
  unfold advance prepare
  refine hlocate.bind (.known ((h.record_gives _).bind fun _ ↦ hstart.bind fun _ ↦ ?_))
  dsimp only
  rw [if_neg (by simp [hrc])]
  exact .pure fun _ hs ↦ ⟨rfl, hs.2⟩

theorem validate_gives (ctx : Context) :
    Gives (Stands At lines runs) (advance svc.watched env opts (.validate ctx)) fun next p ↦
      next = .launch ctx ∧ Stands At lines runs p := by
  have hcheck : Gives (Stands At lines runs) (svc.watched.validate ctx.target) fun verdict p ↦
      verdict = .passed ∧ Stands At lines runs p :=
    logged_gives (h.validate ctx.target) rfl
  unfold advance Session.validate
  exact hcheck.bind (.known (.pure fun _ hs ↦ ⟨rfl, hs⟩))

theorem runOnce_gives (ctx : Context) :
    Gives (Stands At lines runs) (advance svc.watched env opts (.launch ctx)) fun next p ↦
      next = .commandLoop ctx ∧ Stands At lines (runs ++ [(ctx, opts.stop)]) p := by
  unfold advance runOnce
  exact (h.launch_gives ctx opts.stop).bind fun _ ↦ .pure fun _ hs ↦ ⟨rfl, hs⟩

theorem commandLoop_gives (ctx : Context) (hquit : opts.quit = false) :
    Gives (Stands At lines runs) (advance svc.watched env opts (.commandLoop ctx)) fun next p ↦
      ∃ heard rest signal left, lines = heard ++ rest ∧ Closes heard rest signal ∧
        Heeds cwd ctx heard left ∧ next = afterCommands signal left ∧ Stands At rest runs p := by
  intro p hp
  obtain ⟨screen, hroom, hanswer, hrest⟩ := h.processCommands ctx hp.1
  obtain ⟨heard, rest, signal, left, after, hlines, hc, hh, -, hclose⟩ :=
    converse_closes cwd ctx hroom lines
  rw [hclose] at hanswer hrest
  have he : svc.watched.processCommands ctx p = ((svc.processCommands ctx p.1).1,
      (svc.processCommands ctx p.1).2, p.2 ++ [.process ctx (svc.processCommands ctx p.1).1]) := rfl
  rw [hanswer] at he
  have hs := hp.logged_other hrest (c := .process ctx (.ok (signal, left))) rfl
  obtain ⟨⟨⟩, t, ht, hs⟩ := h.record_gives (.commandsEnded signal) _ hs
  refine ⟨afterCommands signal left, t, ?_, heard, rest, signal, left, hlines, hc, hh, rfl, hs⟩
  rw [advance, commandLoop, Act.bind_apply, he]
  dsimp only [Except.map]
  rw [Act.bind_apply, ht]
  cases signal <;> simp only [afterCommands, hquit] <;> rfl

theorem runFrom_gives {steps : Nat} {state : State} {Q : State → σ × List Call → Prop}
    {R : Option Termination → σ × List Call → Prop} (hn : ∀ t, state ≠ .done t)
    (ha : Gives (Stands At lines runs) (advance svc.watched env opts state) Q)
    (hr : ∀ next, Gives (Q next) (runFrom svc.watched env opts steps next) R) :
    Gives (Stands At lines runs) (runFrom svc.watched env opts (steps + 1) state) R :=
  Session.runFrom_gives h.record_gives hn ha hr

theorem done_gives (steps : Nat) (t : Termination) :
    Gives (Stands At lines runs) (runFrom svc.watched env opts (steps + 1) (.done t)) fun r p ↦
      r = some t ∧ Stands At lines runs p :=
  finish_gives h.record_gives h.settle_gives t

/-- From a check on, the session runs the scripts that the lines in front of it ask for, and quits. -/
theorem validate_replays (hquit : opts.quit = false) {steps : Nat} (ctx : Context)
    (hsteps : 3 * lines.length + 4 ≤ steps) :
    Gives (Stands At lines runs) (runFrom svc.watched env opts steps (.validate ctx)) fun r p ↦
      r = some .quit ∧ ∃ contexts, Launches cwd ctx (played lines) contexts ∧
        Stands At (lines.drop (played lines).length) (runs ++ contexts.map (·, opts.stop)) p := by
  -- On the lines that are left: a command session that has the script run again reads one at least.
  induction hlength : lines.length using Nat.strongRecOn generalizing lines runs ctx steps with
  | ind n ih =>
    obtain ⟨steps, rfl⟩ : ∃ k, steps = k + 3 := ⟨steps - 3, by omega⟩
    refine h.runFrom_gives env opts (by simp) (h.validate_gives env opts ctx) (.known ?_)
    refine h.runFrom_gives env opts (by simp) (h.runOnce_gives env opts ctx) (.known ?_)
    refine h.runFrom_gives env opts (by simp) (h.commandLoop_gives env opts ctx hquit) fun next ↦ ?_
    intro p hp
    obtain ⟨heard, rest, signal, left, rfl, hc, hh, rfl, hs⟩ := hp
    by_cases hq : signal = .quit
    · subst hq
      obtain ⟨steps, rfl⟩ : ∃ k, steps = k + 1 := ⟨steps - 1, by omega⟩
      obtain ⟨r, t, hr, rfl, ht⟩ := h.done_gives env opts steps .quit p hs
      obtain ⟨hl, hdrop⟩ := Launches.of_quit cwd ctx hc
      exact ⟨_, t, hr, rfl, [ctx], hl, by rw [hdrop]; exact ht⟩
    · have hread := hc.reads hq
      rw [List.length_append] at hlength
      have hfew : 3 * rest.length + 4 ≤ steps := by
        rw [List.length_append] at hsteps
        omega
      rw [afterCommands, if_neg hq]
      obtain ⟨r, t, hr, rfl, contexts, hl, ht⟩ := ih rest.length (by omega) left hfew rfl p hs
      obtain ⟨hl, hdrop⟩ := Launches.of_relaunch hc hq hh hl
      refine ⟨_, t, hr, rfl, ctx :: contexts, hl, ?_⟩
      rw [hdrop]
      simpa using ht

theorem run_replays {target : String} {script : Path} {steps : Nat} (hlocal : opts.IsLocal target)
    (hrc : opts.rc = false) (hquit : opts.quit = false) (hscript : locate env target = .ok script)
    (hsteps : stepsFor (lines.length + 1) ≤ steps) :
    Gives (Stands At lines runs) (run svc.watched env opts steps) fun r p ↦
      r = some .quit ∧ ∃ contexts,
        Launches cwd (requested opts (initial opts script)) (played lines) contexts ∧
        Stands At (lines.drop (played lines).length) (runs ++ contexts.map (·, opts.stop)) p := by
  obtain ⟨hv, hh, hr, ht⟩ := hlocal
  have hselect : Gives (Stands At lines runs) (advance svc.watched env opts .modeSelect)
      fun next p ↦ next = .localPrep target ∧ Stands At lines runs p := by
    have he : advance svc.watched env opts .modeSelect = pure (.localPrep target) := by
      simp [advance, selectMode, hv, hh, hr, ht, Options.endpoint?]
    rw [he]
    exact .pure fun _ hs ↦ ⟨rfl, hs⟩
  rw [stepsFor] at hsteps
  obtain ⟨steps, rfl⟩ : ∃ k, steps = k + 2 := ⟨steps - 2, by omega⟩
  refine h.runFrom_gives env opts (by simp) hselect (.known ?_)
  refine h.runFrom_gives env opts (by simp) (h.prepare_gives env opts hscript hrc) (.known ?_)
  exact h.validate_replays env opts hquit _ (by omega)

end Replays

/-- The lines of a text, each with the newline that ends it. -/
def textLines (text : String) : List String :=
  (Text.cutAfter Text.isNewline text.toList).map String.ofList

theorem inputLines_encode (text : String) :
    inputLines (Utf8.encode text) = (textLines text).map Utf8.encode := by
  rw [inputLines, Utf8.cutAfter_encode, textLines, List.map_map]
  rfl

/-- A local session replays the text that its consoles read. It ends by quitting; its runs are those that
the lines up to the first that quits ask for; and the lines behind that one stay where they are. -/
theorem local_session_replays {target text : String} {script : Path} {s : σ} {steps : Nat}
    (hlocal : opts.IsLocal target) (hrc : opts.rc = false) (hquit : opts.quit = false)
    (hcwd : env.files.currentDir = .ok cwd) (hscript : locate env target = .ok script)
    (hsvc : Replays svc env.files.currentDir At) (hs : At s (inputLines (Utf8.encode text)))
    (hsteps : stepsFor ((inputLines (Utf8.encode text)).length + 1) ≤ steps) :
    (run svc env opts steps s).1 = .ok (some .quit) ∧
    (∃ contexts, launches (calls svc env opts steps s) = contexts.map (·, opts.stop) ∧
      Launches cwd
        { target := script
          settings := { postMortem := opts.postMortem, linetrace := opts.trace }
          scriptArgs := opts.scriptArgs }
        (played (textLines text)) contexts) ∧
    At (run svc env opts steps s).2
      ((inputLines (Utf8.encode text)).drop (played (textLines text)).length) := by
  rw [hcwd] at hsvc
  rw [inputLines_encode] at hs hsteps ⊢
  rw [List.length_map] at hsteps
  have hstands : Stands At (textLines text) [] (s, []) := ⟨hs, rfl⟩
  obtain ⟨r, p, hrun, rfl, contexts, hl, hat, hp⟩ :=
    hsvc.run_replays env opts hlocal hrc hquit hscript hsteps _ hstands
  have hcalls : launches (calls svc env opts steps s) = contexts.map (·, opts.stop) := by
    rw [calls, hrun]
    exact hp
  rw [run_watched, Prod.mk.injEq, Prod.ext_iff] at hrun
  obtain ⟨hresult, hstate, -⟩ := hrun
  refine ⟨hresult, ⟨contexts, hcalls, hl⟩, ?_⟩
  dsimp only at hstate
  rw [hstate, ← List.map_drop]
  exact hat

end Replay

end Session

namespace Rehearsal

/-- Stand-ins with real consoles on a text, an output without limit and checks that all pass. -/
def Plain (s : Stage) (lines : List Bytes) : Prop :=
  s.room = none ∧ (∀ v ∈ s.checks, v = .passed) ∧
    ∃ (texts : List String) (color : Bool), lines = texts.map Utf8.encode ∧
      s.consoles = .real lines color

theorem cast_replays (cwd : Path) : Session.Replays (cast (.ok cwd)) (.ok cwd) Plain where
  start h := ⟨rfl, h.1, h.2⟩
  load _ _ _ _ h := ⟨h.1, h.2⟩
  validate script s lines h := by
    obtain ⟨marks, room, outcomes, checks, consoles, refuse, targets, log⟩ := s
    cases checks with
    | nil => exact ⟨rfl, h.1, h.2⟩
    | cons v checks =>
      obtain ⟨hroom, hchecks, hconsoles⟩ := h
      obtain rfl := hchecks v List.mem_cons_self
      exact ⟨rfl, hroom, fun v hv ↦ hchecks v (List.mem_cons_of_mem _ hv), hconsoles⟩
  write bs s lines h := by
    obtain ⟨marks, room, outcomes, checks, consoles, refuse, targets, log⟩ := s
    obtain ⟨hroom, h⟩ := h
    obtain rfl : room = none := hroom
    exact ⟨rfl, rfl, h⟩
  flush h := ⟨rfl, h⟩
  note _ _ _ h := ⟨h.1, h.2⟩
  processCommands ctx s lines h := by
    obtain ⟨marks, room, outcomes, checks, consoles, refuse, targets, log⟩ := s
    obtain ⟨hroom, hchecks, texts, color, rfl, hconsoles⟩ := h
    obtain rfl : room = none := hroom
    obtain rfl : consoles = .real (texts.map Utf8.encode) color := hconsoles
    refine ⟨{ color }, rfl, rfl, ?_⟩
    obtain ⟨heard, rest, signal, left, after, -, -, -, hroom, hclose⟩ :=
      Console.converse_closes cwd ctx (rfl : ({ color } : Console.Screen).sink.room = none) texts
    dsimp only [cast, Stage.processCommands, Stage.close]
    rw [hclose]
    exact ⟨hroom, hchecks, rest, color, rfl, rfl⟩

end Rehearsal

/-- Three runs, the second on another script and the last one traced. The line behind `quit` is not
read. -/
theorem Session.local_session_replays_three_runs :
    let svc := Rehearsal.cast (.ok ⟨[Path.slash]⟩)
    let opts : Options := { target := some "app" }
    let text := "r other\nset linetrace on\nset post_mortem maybe\nc\nquit\nc\n"
    let stage : Rehearsal.Stage :=
      { outcomes := [.fault "gone"], consoles := .real (Console.inputLines (Utf8.encode text)) true }
    opts.IsLocal "app" ∧ Rehearsal.Plain stage (Console.inputLines (Utf8.encode text)) ∧
      (Session.played (Session.textLines text)).length = 5 ∧
      (Session.run svc .bare opts 25 stage).1 = .ok (some .quit) ∧
      (Session.launches (Session.calls svc .bare opts 25 stage)).length = 3 ∧
      ∃ contexts, Session.launches (Session.calls svc .bare opts 25 stage) = contexts.map (·, true) ∧
        Session.Launches ⟨[Path.slash]⟩ { target := .ofText "/app" }
          (Session.played (Session.textLines text)) contexts := by
  intro svc opts text stage
  have hplain : Rehearsal.Plain stage (Console.inputLines (Utf8.encode text)) :=
    ⟨rfl, nofun, Session.textLines text, true, Session.inputLines_encode text, rfl⟩
  have h := @Session.local_session_replays _ svc .bare opts ⟨[Path.slash]⟩ Rehearsal.Plain "app" text
    (.ofText "/app") stage 25 ⟨rfl, rfl, rfl, rfl⟩ rfl rfl rfl rfl
    (Rehearsal.cast_replays ⟨[Path.slash]⟩) hplain (by decide)
  exact ⟨⟨rfl, rfl, rfl, rfl⟩, hplain, by decide +kernel, h.1, by decide +kernel, h.2.1⟩

end DebugSession
