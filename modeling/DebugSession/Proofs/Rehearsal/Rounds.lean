import DebugSession.Proofs.Session.Opening
import Mathlib.Data.List.GetD

/-!
A rehearsal with scripted consoles in closed form. Each round of a check, a run and a command session takes
a verdict and a signal from their lists, and the first of these that ends the session decides how many
rounds there are.
-/

namespace DebugSession.Rehearsal

open Session

section Progress

/-- A stage on which `checks` and `signals` are left, and what has happened on it so far. -/
structure Progress (checks : List Verdict) (signals : List Signal) (entries : List String)
    (targets : List Path) (s : Stage) : Prop where
  room : s.room = none
  checks : s.checks = checks
  consoles : s.consoles = .scripted signals
  entries : s.journal.entries = entries
  targets : s.targets = targets

variable {checks : List Verdict} {signals : List Signal} {entries : List String} {targets : List Path}
  (cwd : Except IoError Path)

theorem record_gives (e : Event) : Gives (Progress checks signals entries targets)
    ((cast cwd).record e) fun _ ↦ Progress checks signals entries targets := by
  intro s hs
  exact ⟨(), _, rfl, hs.room, hs.checks, hs.consoles, hs.entries, hs.targets⟩

theorem say_gives (text : String) : Gives (Progress checks signals entries targets)
    ((cast cwd).say text) fun _ ↦ Progress checks signals entries targets := by
  intro s hs
  have hw := Stage.write_unlimited (Utf8.encode text) hs.room
  have he : (cast cwd).say text s =
    ((s.write (Utf8.encode text)).1.mapError .io, (s.write (Utf8.encode text)).2) := rfl
  rw [hw] at he
  refine ⟨(), _, he, hs.room, hs.checks, hs.consoles, ?_, hs.targets⟩
  rw [← hs.entries]
  exact Stage.entries_shown rfl

theorem settle_gives : Gives (Progress checks signals entries targets)
    (cast cwd).settle fun _ ↦ Progress checks signals entries targets := by
  intro s hs
  exact ⟨(), s, rfl, hs⟩

theorem tell_gives (answer : Except Fault (Option RunFailure)) :
    Gives (Progress checks signals entries targets) (tell (cast cwd) answer) fun _ ↦
      Progress checks signals entries targets := by
  have hreport (failure : RunFailure) : Gives (Progress checks signals entries targets)
      (report (cast cwd) failure) fun _ ↦ Progress checks signals entries targets :=
    (say_gives cwd _).bind fun _ ↦ settle_gives cwd
  rcases answer with e | _ | failure
  · exact (record_gives cwd _).bind fun _ ↦ hreport _
  · exact .pure fun _ hs ↦ hs
  · exact hreport failure

theorem start_gives : Gives (Progress checks signals entries targets) (cast cwd).start fun _ ↦
    Progress checks signals (entries ++ ["start"]) targets := by
  intro s hs
  refine ⟨(), _, rfl, hs.room, hs.checks, hs.consoles, ?_, hs.targets⟩
  rw [← hs.entries]
  exact Stage.entries_called rfl

theorem check_gives (script : Path) : Gives (Progress checks signals entries targets)
    ((cast cwd).validate script) fun verdict s ↦ verdict = checks.headD .passed ∧
      Progress checks.tail signals (entries ++ ["validate " ++ script.shortText]) targets s := by
  intro s hs
  obtain ⟨marks, room, outcomes, left, consoles, refuse, done, log⟩ := s
  obtain ⟨hroom, hchecks, hconsoles, hentries, htargets⟩ := hs
  obtain rfl : left = checks := hchecks
  have hcalled : ∀ (t : Stage), t.marks = .called ("validate " ++ script.shortText) :: marks →
      t.journal.entries = entries ++ ["validate " ++ script.shortText] := by
    intro t ht
    rw [← hentries]
    exact Stage.entries_called ht
  cases left with
  | nil => exact ⟨_, _, rfl, rfl, hroom, rfl, hconsoles, hcalled _ rfl, htargets⟩
  | cons v checks => exact ⟨_, _, rfl, rfl, hroom, rfl, hconsoles, hcalled _ rfl, htargets⟩

theorem run_gives (opts : Options) (ctx : Context) : Gives (Progress checks signals entries targets)
    (runOnce (cast cwd) opts ctx) fun next s ↦ next = .commandLoop ctx ∧
      Progress checks signals (entries ++ [Stage.launchEntry ctx opts.stop]) (ctx.target :: targets)
        s := by
  have hload : Gives (Progress checks signals entries targets) ((cast cwd).load ctx opts.stop).attempt
      fun _ ↦ Progress checks signals (entries ++ [Stage.launchEntry ctx opts.stop])
        (ctx.target :: targets) := by
    intro s hs
    refine ⟨_, _, rfl, hs.room, hs.checks, hs.consoles, ?_, congrArg (List.cons _) hs.targets⟩
    rw [← hs.entries]
    exact Stage.entries_called rfl
  rw [runOnce_eq]
  refine (record_gives cwd _).bind fun _ ↦ hload.bind fun answer ↦ ?_
  refine (tell_gives cwd answer).bind fun _ ↦ .pure ?_
  intro s hs
  exact ⟨rfl, hs⟩

theorem commands_gives (opts : Options) (ctx : Context) :
    Gives (Progress checks signals entries targets) (commandLoop (cast cwd) opts ctx) fun next s ↦
      next = (if signals.headD .quit = .quit || opts.quit then .done .quit else .validate ctx) ∧
        Progress checks signals.tail (entries ++ ["commands " ++ ctx.target.shortText]) targets s := by
  have hclose : Gives (Progress checks signals entries targets) ((cast cwd).processCommands ctx)
      fun close s ↦ close = (signals.headD .quit, ctx) ∧
        Progress checks signals.tail (entries ++ ["commands " ++ ctx.target.shortText]) targets s := by
    intro s hs
    obtain ⟨marks, room, outcomes, left, consoles, refuse, done, log⟩ := s
    obtain ⟨hroom, hchecks, hconsoles, hentries, htargets⟩ := hs
    obtain rfl : consoles = .scripted signals := hconsoles
    refine ⟨_, _, rfl, rfl, hroom, hchecks, rfl, ?_, htargets⟩
    rw [← hentries]
    exact Stage.entries_called rfl
  unfold commandLoop
  refine hclose.bind (.known ((record_gives cwd _).bind fun _ ↦ ?_))
  split
  · exact .pure fun _ hs ↦ ⟨rfl, hs⟩
  · exact .pure fun _ hs ↦ ⟨rfl, hs⟩

end Progress

section Rounds

def checkEntry (script : Path) : String := "validate " ++ script.shortText

/-- The entries of a round that is not cut short. -/
def round (opts : Options) (script : Path) : List String :=
  [checkEntry script,
    "launch " ++ script.shortText ++ " stop=" ++ Event.flagText opts.stop ++
      " post_mortem=" ++ Event.flagText opts.postMortem ++
      " linetrace=" ++ Event.flagText opts.trace,
    "commands " ++ script.shortText]

def rounds (opts : Options) (script : Path) (n : Nat) : List String :=
  (List.replicate n (round opts script)).flatten

theorem rounds_succ (opts : Options) (script : Path) (n : Nat) :
    rounds opts script (n + 1) = rounds opts script n ++ round opts script := by
  simp [rounds, List.replicate_succ']

variable (env : Environment) (opts : Options) (script : Path) (checks : List Verdict)
  (signals : List Signal)

/-- After `n` full rounds. -/
def After (n : Nat) : Stage → Prop :=
  Progress (checks.drop n) (signals.drop n) ("start" :: rounds opts script n)
    (List.replicate n script)

variable {env opts script checks signals} {cwd : Except IoError Path} {n steps : Nat}
  {R : Option Termination → Stage → Prop}

theorem head_drop {α : Type} (l : List α) (n : Nat) (a : α) : (l.drop n).headD a = l.getD n a := by
  rw [List.headD_eq_head?_getD, List.head?_drop, List.getD]

/-- The context of every run: scripted consoles leave it as it is. -/
abbrev constant (opts : Options) (script : Path) : Context := requested opts (initial opts script)

theorem validate_passed_gives (hpass : checks.getD n .passed = .passed) :
    Gives (After opts script checks signals n)
      (advance (cast cwd) env opts (.validate (constant opts script))) fun next s ↦
        next = .launch (constant opts script) ∧
          Progress (checks.drop (n + 1)) (signals.drop n)
            ("start" :: rounds opts script n ++ [checkEntry script]) (List.replicate n script) s := by
  intro s hs
  obtain ⟨verdict, t, hcheck, rfl, ht⟩ := check_gives cwd (constant opts script).target s hs
  rw [head_drop, hpass] at hcheck
  rw [List.tail_drop] at ht
  refine ⟨_, t, ?_, rfl, ht⟩
  rw [advance, validate, Act.bind_ok hcheck]
  rfl

theorem round_gives (hpass : checks.getD n .passed = .passed)
    (hnext : Gives (After opts script checks signals (n + 1))
      (runFrom (cast cwd) env opts steps (if signals.getD n .quit = .quit || opts.quit then .done .quit
        else .validate (constant opts script))) R) :
    Gives (After opts script checks signals n)
      (runFrom (cast cwd) env opts (steps + 3) (.validate (constant opts script))) R := by
  refine runFrom_gives (record_gives cwd) (by simp) (validate_passed_gives hpass) (.known ?_)
  refine runFrom_gives (record_gives cwd) (by simp) (run_gives cwd opts _) (.known ?_)
  refine runFrom_gives (record_gives cwd) (by simp) (commands_gives cwd opts _) (.known ?_)
  rw [head_drop, List.tail_drop]
  have hentries : "start" :: rounds opts script n ++ [checkEntry script] ++
      [Stage.launchEntry (constant opts script) opts.stop] ++ ["commands " ++ script.shortText] =
        "start" :: rounds opts script (n + 1) := by
    rw [rounds_succ]
    simp [round, Stage.launchEntry, requested, initial]
  rw [After, ← hentries] at hnext
  exact hnext

/-- The verdicts that end a session, and how. -/
inductive Concludes : Verdict → Termination → Prop
  | failed (status : Int) (output : String) : Concludes (.failed status output) (.checkFailed status)
  | timedOut (after : Duration) : Concludes (.timedOut after) .checkTimedOut

theorem validate_concludes_gives (hfail : checks.getD n .passed ≠ .passed) :
    Gives (After opts script checks signals n)
      (advance (cast cwd) env opts (.validate (constant opts script))) fun next s ↦
        ∃ t, next = .done t ∧ Concludes (checks.getD n .passed) t ∧
          Progress (checks.drop (n + 1)) (signals.drop n)
            ("start" :: rounds opts script n ++ [checkEntry script]) (List.replicate n script) s := by
  intro s hs
  obtain ⟨verdict, s, hcheck, rfl, hs⟩ := check_gives cwd (constant opts script).target s hs
  rw [head_drop] at hcheck
  rw [List.tail_drop] at hs
  rw [advance, validate, Act.bind_ok hcheck]
  cases hv : checks.getD n .passed with
  | passed => exact absurd hv hfail
  | failed status output =>
    obtain ⟨_, s, hrecord, hs⟩ := record_gives cwd (.checkFailed status) s hs
    obtain ⟨_, s, hsay, hs⟩ := say_gives cwd (Notice.checkOutput output).text s hs
    refine ⟨_, s, ?_, _, rfl, .failed status output, hs⟩
    dsimp only
    rw [Act.bind_ok hrecord, announce, Act.bind_ok hsay]
    rfl
  | timedOut after =>
    obtain ⟨_, s, hsay, hs⟩ :=
      say_gives cwd (Notice.checkTimedOut (constant opts script).target after).text s hs
    refine ⟨_, s, ?_, _, rfl, .timedOut after, hs⟩
    dsimp only
    rw [announce, Act.bind_ok hsay]
    rfl

variable (steps) in
theorem concludes_gives (hfail : checks.getD n .passed ≠ .passed) :
    Gives (After opts script checks signals n)
      (runFrom (cast cwd) env opts (steps + 2) (.validate (constant opts script))) fun r s ↦
        (∃ t, r = some t ∧ Concludes (checks.getD n .passed) t) ∧
          s.journal.entries = "start" :: rounds opts script n ++ [checkEntry script] ∧
          s.targets = List.replicate n script := by
  refine runFrom_gives (record_gives cwd) (by simp) (validate_concludes_gives hfail) ?_
  intro next s hs
  obtain ⟨t, rfl, hconcludes, hs⟩ := hs
  obtain ⟨_, u, hfinish, rfl, hu⟩ := finish_gives (record_gives cwd) (settle_gives cwd) t s hs
  exact ⟨_, u, hfinish, ⟨t, rfl, hconcludes⟩, hu.entries, hu.targets⟩

/-- The full rounds up to the `n`-th, where no check and no signal ends the session. -/
theorem rounds_gives (hpass : ∀ k < n, checks.getD k .passed = .passed)
    (hgo : ∀ k < n, opts.quit = false ∧ signals.getD k .quit ≠ .quit)
    (hnext : Gives (After opts script checks signals n)
      (runFrom (cast cwd) env opts steps (.validate (constant opts script))) R) :
    Gives (After opts script checks signals 0)
      (runFrom (cast cwd) env opts (steps + 3 * n) (.validate (constant opts script))) R := by
  -- On the number of rounds: `After` holds all that the earlier ones leave, so the last one is a single step.
  induction n generalizing steps with
  | zero => exact hnext
  | succ n ih =>
    have hsteps : steps + 3 * (n + 1) = steps + 3 + 3 * n := by omega
    rw [hsteps]
    refine ih (fun k hk ↦ hpass k (by omega)) (fun k hk ↦ hgo k (by omega)) ?_
    obtain ⟨hquit, hsignal⟩ := hgo n (by omega)
    refine round_gives (hpass n (by omega)) ?_
    have hmore : (decide (signals.getD n .quit = .quit) || opts.quit) = false := by
      rw [hquit, decide_eq_false hsignal, Bool.or_self]
    rw [hmore, if_neg Bool.false_ne_true]
    exact hnext

variable (steps) in
/-- The last round of a session that its signals end. -/
theorem quit_gives (hpass : checks.getD n .passed = .passed)
    (hquit : opts.quit = true ∨ signals.getD n .quit = .quit) :
    Gives (After opts script checks signals n)
      (runFrom (cast cwd) env opts (steps + 4) (.validate (constant opts script))) fun r s ↦
        r = some .quit ∧ s.journal.entries = "start" :: rounds opts script (n + 1) ∧
          s.targets = List.replicate (n + 1) script := by
  refine round_gives hpass ?_
  have hlast : (decide (signals.getD n .quit = .quit) || opts.quit) = true := by
    rcases hquit with hq | hq
    · rw [hq, Bool.or_true]
    · rw [decide_eq_true hq, Bool.true_or]
  rw [hlast, if_pos rfl]
  intro s hs
  obtain ⟨_, u, hfinish, rfl, hu⟩ := finish_gives (record_gives cwd) (settle_gives cwd) .quit s hs
  exact ⟨_, u, hfinish, rfl, hu.entries, hu.targets⟩

variable (env cwd) in
theorem opening_gives (target : String) (hrc : opts.rc = false) :
    Gives (Progress checks signals [] []) (opening (cast cwd) env opts target script) fun next s ↦
      next = .validate (constant opts script) ∧ After opts script checks signals 0 s := by
  unfold opening
  rw [if_neg (by simp [hrc])]
  refine (record_gives cwd _).bind fun _ ↦ (record_gives cwd _).bind fun _ ↦ ?_
  refine (record_gives cwd _).bind fun _ ↦ (start_gives cwd).bind fun _ ↦ ?_
  rw [pure_bind]
  refine .pure ?_
  intro s hs
  exact ⟨rfl, hs⟩

end Rounds

section ClosedForm

variable {checks : List Verdict} {signals : List Signal} {n k : Nat} {quit : Bool}

/-- The last round that the signals allow, counted from 0. Behind its end the list of signals quits. -/
def lastRound (quit : Bool) (signals : List Signal) : Nat :=
  if quit then 0 else signals.findIdx (· = .quit)

theorem lastRound_le (quit : Bool) (signals : List Signal) :
    lastRound quit signals ≤ signals.length := by
  unfold lastRound
  split
  · exact Nat.zero_le _
  · exact List.findIdx_le_length

theorem goes_on_before_last (hk : k < lastRound quit signals) :
    quit = false ∧ signals.getD k .quit ≠ .quit := by
  unfold lastRound at hk
  split at hk
  · exact absurd hk (Nat.not_lt_zero k)
  next hquit =>
    have hlt : k < signals.length := Nat.lt_of_lt_of_le hk List.findIdx_le_length
    have hsignal := List.not_of_lt_findIdx hk
    refine ⟨by simpa using hquit, ?_⟩
    rw [List.getD_eq_getElem _ _ hlt]
    simpa using hsignal

theorem ends_at_last (quit : Bool) (signals : List Signal) :
    quit = true ∨ signals.getD (lastRound quit signals) .quit = .quit := by
  cases quit with
  | true => exact .inl rfl
  | false =>
    right
    change signals.getD (signals.findIdx (· = .quit)) .quit = .quit
    by_cases hlt : signals.findIdx (· = .quit) < signals.length
    · rw [List.getD_eq_getElem _ _ hlt]
      simpa using List.findIdx_getElem (w := hlt)
    · exact List.getD_eq_default _ _ (Nat.le_of_not_lt hlt)

theorem passes_before_first (h : ∀ i, checks.findIdx? (· ≠ .passed) = some i → n ≤ i) (hk : k < n) :
    checks.getD k .passed = .passed := by
  by_cases hlt : k < checks.length
  · rw [List.getD_eq_getElem _ _ hlt]
    cases hfirst : checks.findIdx? (· ≠ .passed) with
    | none =>
      have hall := List.findIdx?_eq_none_iff.mp hfirst checks[k] (List.getElem_mem hlt)
      simpa using hall
    | some i =>
      obtain ⟨_, _, hbefore⟩ := List.findIdx?_eq_some_iff_getElem.mp hfirst
      have hat := hbefore k (Nat.lt_of_lt_of_le hk (h i hfirst))
      simpa using hat
  · exact List.getD_eq_default _ _ (Nat.le_of_not_lt hlt)

theorem fails_at_first (h : checks.findIdx? (· ≠ .passed) = some n) :
    checks.getD n .passed ≠ .passed := by
  obtain ⟨hlt, hfail, -⟩ := List.findIdx?_eq_some_iff_getElem.mp h
  rw [List.getD_eq_getElem _ _ hlt]
  simpa using hfail

/-- A rehearsal with scripted consoles, in closed form. It is over in the round of the first check that does
not pass, unless the signals end it before that. -/
theorem scripted_rounds {env : Environment} {opts : Options} {target : String} {script : Path}
    (hlocal : opts.IsLocal target) (hrc : opts.rc = false) (hscript : locate env target = .ok script)
    {s : Stage} (hs : Progress checks signals [] [] s) :
    let r := rehearse env opts s
    let first? := checks.findIdx? (· ≠ .passed)
    let last := lastRound opts.quit signals
    (∀ i, first? = some i → i ≤ last →
      (∃ t, r.1 = .ok (some t) ∧ Concludes (checks.getD i .passed) t) ∧
      r.2.journal.entries = "start" :: rounds opts script i ++ [checkEntry script] ∧
      r.2.targets = List.replicate i script) ∧
    ((∀ i, first? = some i → last < i) →
      r.1 = .ok (some .quit) ∧
      r.2.journal.entries = "start" :: rounds opts script (last + 1) ∧
      r.2.targets = List.replicate (last + 1) script) := by
  intro r first? last
  obtain ⟨_, t, hopening, rfl, ht⟩ := opening_gives env env.files.currentDir target hrc s hs
  have hlast : last ≤ signals.length := lastRound_le opts.quit signals
  have hrun (steps n : Nat) (hn : stepsFor s.sessions = steps + 3 * n + 2) :
      r = runFrom (cast env.files.currentDir) env opts (steps + 3 * n)
        (.validate (constant opts script)) t := by
    change run _ env opts (stepsFor s.sessions) s = _
    rw [hn, run_local (cast env.files.currentDir) env opts hlocal hscript]
    exact Act.bind_ok hopening _
  have hsteps : stepsFor s.sessions = 3 * (signals.length + 1) + 4 := by
    rw [Stage.sessions, hs.consoles, stepsFor]
  refine ⟨fun i hi hle ↦ ?_, fun hnone ↦ ?_⟩
  · have hpass : ∀ k < i, checks.getD k .passed = .passed := by
      intro k hk
      refine passes_before_first (n := i) (fun i' hi' ↦ ?_) hk
      exact Nat.le_of_eq (Option.some.inj (hi.symm.trans hi'))
    have hgo : ∀ k < i, opts.quit = false ∧ signals.getD k .quit ≠ .quit := by
      intro k hk
      exact goes_on_before_last (Nat.lt_of_lt_of_le hk hle)
    obtain ⟨steps, he⟩ : ∃ steps, stepsFor s.sessions = steps + 2 + 3 * i + 2 :=
      ⟨3 * signals.length + 3 - 3 * i, by omega⟩
    obtain ⟨answer, u, hend, ⟨t', rfl, hconcludes⟩, hentries, htargets⟩ :=
      rounds_gives hpass hgo (concludes_gives steps (fails_at_first hi)) t ht
    rw [hrun (steps + 2) i he, hend]
    exact ⟨⟨t', rfl, hconcludes⟩, hentries, htargets⟩
  · have hpass : ∀ k < last + 1, checks.getD k .passed = .passed := by
      intro k hk
      exact passes_before_first hnone hk
    have hgo : ∀ k < last, opts.quit = false ∧ signals.getD k .quit ≠ .quit := by
      intro k hk
      exact goes_on_before_last hk
    obtain ⟨steps, he⟩ : ∃ steps, stepsFor s.sessions = steps + 4 + 3 * last + 2 :=
      ⟨3 * signals.length + 1 - 3 * last, by omega⟩
    obtain ⟨answer, u, hend, rfl, hentries, htargets⟩ :=
      rounds_gives (fun k hk ↦ hpass k (Nat.lt_succ_of_lt hk)) hgo
        (quit_gives steps (hpass last (Nat.lt_succ_self last)) (ends_at_last opts.quit signals)) t ht
    rw [hrun (steps + 4) last he, hend]
    exact ⟨rfl, hentries, htargets⟩

/-- The second check fails in the round in which the signals would end the session. When one run is asked
for it is not reached. -/
theorem scripted_rounds_on_the_boundary :
    let opts : Options := { target := some "app", stop := false, trace := true }
    let once : Options := { opts with quit := true }
    let signals : List Signal := [.restart, .quit]
    let s : Stage := {
      outcomes := [.fault "gone"]
      checks := [.passed, .failed 3 "bad"]
      consoles := .scripted signals }
    let round := ["validate app", "launch app stop=false post_mortem=false linetrace=true",
      "commands app"]
    opts.IsLocal "app" ∧ lastRound opts.quit signals = 1 ∧
      (rehearse .bare opts s).1 = .ok (some (.checkFailed 3)) ∧
      (rehearse .bare opts s).2.journal.entries = "start" :: round ++ ["validate app"] ∧
      (rehearse .bare opts s).2.targets = [.ofText "/app"] ∧
      once.IsLocal "app" ∧ lastRound once.quit signals = 0 ∧
      (rehearse .bare once s).1 = .ok (some .quit) ∧
      (rehearse .bare once s).2.journal.entries = "start" :: round ∧
      (rehearse .bare once s).2.targets = [.ofText "/app"] := by
  intro opts once signals s round
  have hlocal : opts.IsLocal "app" := ⟨rfl, rfl, rfl, rfl⟩
  have honce : once.IsLocal "app" := ⟨rfl, rfl, rfl, rfl⟩
  have hs : Progress [.passed, .failed 3 "bad"] signals [] [] s := ⟨rfl, rfl, rfl, rfl, rfl⟩
  have hscript : locate .bare "app" = .ok (.ofText "/app") := rfl
  have h := scripted_rounds hlocal rfl hscript hs
  have h' := scripted_rounds honce rfl hscript hs
  obtain ⟨⟨t, hend, hconcludes⟩, hentries, htargets⟩ := h.1 1 rfl (by decide)
  obtain ⟨hend', hentries', htargets'⟩ := h'.2 fun i hi ↦ by
    cases hi
    decide
  cases hconcludes
  exact ⟨hlocal, rfl, hend, hentries.trans (by decide +kernel), htargets, honce, rfl, hend',
    hentries'.trans (by decide +kernel), htargets'⟩

end ClosedForm

end DebugSession.Rehearsal
