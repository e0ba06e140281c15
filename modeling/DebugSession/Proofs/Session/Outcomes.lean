import DebugSession.Proofs.Console.Limit
import DebugSession.Proofs.Session.Induction
import DebugSession.Proofs.Session.Output
import DebugSession.Proofs.Session.Phases
import DebugSession.Rehearsal.Stage

/-!
How its runs end does not steer a session. Two sessions whose services differ in the engine make the same
calls and end alike, and their outputs differ in the reports about the runs alone.
-/

namespace DebugSession

variable {σ τ α : Type}

namespace Session

section Reports

/-- What is told about a run, line by line: nothing if it was completed, the message and the frames of a
failure, and the text of a fault of the engine. -/
def reportLines : Except Fault (Option RunFailure) → List String
  | .ok none => []
  | .ok (some failure) => failure.message :: failure.backtrace.map ("\t" ++ ·)
  | .error e => [e.message]

def reportBlock (answer : Except Fault (Option RunFailure)) : Bytes :=
  (reportLines answer).flatMap fun line ↦ Utf8.encode (line ++ "\n")

theorem reportBlock_failure (failure : RunFailure) :
    reportBlock (.ok (some failure)) = Utf8.encode (Notice.report failure).text := by
  have hjoin : Utf8.encode (failure.message ++ "\n" ++
      String.join (failure.backtrace.map fun frame ↦ "\t" ++ frame ++ "\n")) =
      Utf8.encode (failure.message ++ "\n") ++
        (failure.backtrace.map fun frame ↦ "\t" ++ frame ++ "\n").flatMap Utf8.encode := by
    rw [Utf8.encode_append, Utf8.encode_join]
  rw [List.flatMap_map] at hjoin
  rw [reportBlock, reportLines, List.flatMap_cons, List.flatMap_map]
  exact hjoin.symm

theorem tell_gives {svc : Services σ} {V : Bytes → σ → Prop} (h : svc.Takes V)
    (answer : Except Fault (Option RunFailure)) (shown : Bytes) (log : List Call) :
    Gives (At V shown log) (tell svc.watched answer) fun _ p ↦
      ∃ told, Reports (reported answer) told (.ok ()) ∧
        At V (shown ++ reportBlock answer) (log ++ told) p := by
  have hreport (failure : RunFailure) : Gives (At V shown log) (report svc.watched failure) fun _ p ↦
      ∃ told, Reports (some failure) told (.ok ()) ∧
        At V (shown ++ reportBlock (.ok (some failure))) (log ++ told) p := by
    rw [reportBlock_failure]
    refine (h.say_gives _).bind fun _ ↦ h.settle_gives.mono fun _ p hp ↦ ?_
    exact ⟨_, .written failure (.ok ()), by simpa using hp⟩
  obtain e | _ | failure := answer
  · exact (h.record_gives _).bind fun _ ↦ hreport ⟨e.message, []⟩
  · exact .pure fun p hp ↦ ⟨[], .silent, by simpa [reportBlock, reportLines] using hp⟩
  · exact hreport failure

end Reports

section Trimmed

/-- What one call may show: a write its octets, command lines, command sessions and a connection whatever
they like, and the others nothing. Runs of the engine are left to `Trimmed`. -/
inductive Shows : Call → Bytes → Prop
  | start (answer : Except Fault Unit) : Shows (.start answer) []
  | execute (ctx : Context) (line : String) (answer : Except Fault (Signal × Context)) (bs : Bytes) :
      Shows (.execute ctx line answer) bs
  | validate (script : Path) (answer : Except Fault Verdict) : Shows (.validate script answer) []
  | process (ctx : Context) (answer : Except Fault (Signal × Context)) (bs : Bytes) :
      Shows (.process ctx answer) bs
  | connect (endpoint : Endpoint) (answer : Except Fault Unit) (bs : Bytes) :
      Shows (.connect endpoint answer) bs
  | write (bs : Bytes) : Shows (.write bs (.ok ())) bs
  | flush : Shows (.flush (.ok ())) []

/-- `shown` is what the calls in `log` showed, and `kept` is that without the report about each run, which
stands directly behind it. -/
inductive Trimmed : (log : List Call) → (shown kept : Bytes) → Prop
  | nil : Trimmed [] [] []
  | call {log : List Call} {shown kept bs : Bytes} {c : Call} :
      Trimmed log shown kept → Shows c bs → Trimmed (log ++ [c]) (shown ++ bs) (kept ++ bs)
  | run {log told : List Call} {shown kept : Bytes} (ctx : Context) (stop : Bool)
      {answer : Except Fault (Option RunFailure)} :
      Trimmed log shown kept → Reports (reported answer) told (.ok ()) →
      Trimmed (log ++ .load ctx stop answer :: told) (shown ++ reportBlock answer) kept

end Trimmed

end Session

open Session

/-- Services that differ in the engine. In states that `R` relates the others answer alike, whatever the
engines have answered, and outputs take what they are given; `out` and `out'` are what those have taken. -/
structure Services.Alike (svc : Services σ) (svc' : Services τ) (R : σ → τ → Prop) (out : σ → Bytes)
    (out' : τ → Bytes) : Prop where
  start : ∀ {s t}, R s t → (svc.start s).1 = .ok () ∧ (svc'.start t).1 = .ok () ∧
    R (svc.start s).2 (svc'.start t).2 ∧
    out (svc.start s).2 = out s ∧ out' (svc'.start t).2 = out' t
  load : ∀ ctx stop {s t}, R s t → R (svc.load ctx stop s).2 (svc'.load ctx stop t).2 ∧
    out (svc.load ctx stop s).2 = out s ∧ out' (svc'.load ctx stop t).2 = out' t
  validate : ∀ script {s t}, R s t → (svc.validate script s).1 = (svc'.validate script t).1 ∧
    R (svc.validate script s).2 (svc'.validate script t).2 ∧
    out (svc.validate script s).2 = out s ∧ out' (svc'.validate script t).2 = out' t
  processCommands : ∀ ctx {s t}, R s t →
    (svc.processCommands ctx s).1 = (svc'.processCommands ctx t).1 ∧
    R (svc.processCommands ctx s).2 (svc'.processCommands ctx t).2 ∧
    ∃ bs, out (svc.processCommands ctx s).2 = out s ++ bs ∧
      out' (svc'.processCommands ctx t).2 = out' t ++ bs
  executeCommand : ∀ ctx line {s t}, R s t →
    (svc.executeCommand ctx line s).1 = (svc'.executeCommand ctx line t).1 ∧
    R (svc.executeCommand ctx line s).2 (svc'.executeCommand ctx line t).2 ∧
    ∃ bs, out (svc.executeCommand ctx line s).2 = out s ++ bs ∧
      out' (svc'.executeCommand ctx line t).2 = out' t ++ bs
  connect : ∀ endpoint {s t}, R s t → (svc.connect endpoint s).1 = (svc'.connect endpoint t).1 ∧
    R (svc.connect endpoint s).2 (svc'.connect endpoint t).2 ∧
    ∃ bs, out (svc.connect endpoint s).2 = out s ++ bs ∧
      out' (svc'.connect endpoint t).2 = out' t ++ bs
  left : ∀ t, svc.Takes fun shown s ↦ R s t ∧ out s = shown
  right : ∀ s, svc'.Takes fun shown t ↦ R s t ∧ out' t = shown

namespace Services.Alike

variable {svc : Services σ} {svc' : Services τ} {R : σ → τ → Prop} {out : σ → Bytes}
  {out' : τ → Bytes} {before before' : Bytes}

/-- Two sessions on the way, with what their outputs had taken before. -/
structure Abreast (R : σ → τ → Prop) (out : σ → Bytes) (out' : τ → Bytes) (before before' : Bytes)
    (p : σ × List Call) (q : τ × List Call) : Prop where
  related : R p.1 q.1
  requests : (serviceCalls p.2).map Call.request = (serviceCalls q.2).map Call.request
  output : ∃ shown shown' kept, out p.1 = before ++ shown ∧ out' q.1 = before' ++ shown' ∧
    Trimmed p.2 shown kept ∧ Trimmed q.2 shown' kept

theorem Abreast.call {p : σ × List Call} {q : τ × List Call} {s : σ} {t : τ} {c : Call} {bs : Bytes}
    (h : Abreast R out out' before before' p q) (hr : R s t) (hc : Shows c bs)
    (hout : out s = out p.1 ++ bs) (hout' : out' t = out' q.1 ++ bs) :
    Abreast R out out' before before' (s, p.2 ++ [c]) (t, q.2 ++ [c]) where
  related := hr
  requests := by
    simp only [serviceCalls, List.filter_append, List.map_append]
    exact congrArg (· ++ _) h.requests
  output := by
    obtain ⟨shown, shown', kept, hs, hs', hk, hk'⟩ := h.output
    refine ⟨shown ++ bs, shown' ++ bs, kept ++ bs, ?_, ?_, hk.call hc, hk'.call hc⟩
    · rw [hout, hs, List.append_assoc]
    · rw [hout', hs', List.append_assoc]

theorem serviceCalls_reports {failure? : Option RunFailure} {told : List Call}
    {r : Except Fault Unit} (h : Reports failure? told r) : serviceCalls told = [] := by
  cases h <;> rfl

theorem Abreast.run {p : σ × List Call} {q : τ × List Call} {s : σ} {t : τ} (ctx : Context)
    (stop : Bool) {answer answer' : Except Fault (Option RunFailure)} {told told' : List Call}
    (h : Abreast R out out' before before' p q) (hr : R s t)
    (htold : Reports (reported answer) told (.ok ()))
    (htold' : Reports (reported answer') told' (.ok ()))
    (hout : out s = out p.1 ++ reportBlock answer) (hout' : out' t = out' q.1 ++ reportBlock answer') :
    Abreast R out out' before before' (s, p.2 ++ .load ctx stop answer :: told)
      (t, q.2 ++ .load ctx stop answer' :: told') where
  related := hr
  requests := by
    have hone {told : List Call} (answer : Except Fault (Option RunFailure))
        (h : serviceCalls told = []) :
        (serviceCalls (.load ctx stop answer :: told)).map Call.request = [.load ctx stop] := by
      rw [serviceCalls, List.filter_cons_of_pos rfl, ← serviceCalls, h]
      rfl
    rw [serviceCalls, serviceCalls, List.filter_append, List.filter_append, List.map_append,
      List.map_append, ← serviceCalls, ← serviceCalls, ← serviceCalls, ← serviceCalls, h.requests,
      hone answer (serviceCalls_reports htold), hone answer' (serviceCalls_reports htold')]
  output := by
    obtain ⟨shown, shown', kept, hs, hs', hk, hk'⟩ := h.output
    refine ⟨_, _, kept, ?_, ?_, hk.run ctx stop htold, hk'.run ctx stop htold'⟩
    · rw [hout, hs, List.append_assoc]
    · rw [hout', hs', List.append_assoc]

theorem logged_together {act : Act σ α} {act' : Act τ α} {call : Except Fault α → Call}
    (h : ∀ {s t}, R s t → (act s).1 = (act' t).1 ∧ R (act s).2 (act' t).2 ∧
      ∃ bs, out (act s).2 = out s ++ bs ∧ out' (act' t).2 = out' t ++ bs ∧
        Shows (call (act s).1) bs) :
    Together (Abreast R out out' before before') (logged call act) (logged call act') := by
  intro p q hp
  obtain ⟨hanswer, hr, bs, hout, hout', hc⟩ := h hp.related
  refine ⟨hanswer, ?_⟩
  have he : logged call act' q = ((act' q.1).1, (act' q.1).2, q.2 ++ [call (act' q.1).1]) := rfl
  rw [he, ← hanswer]
  exact hp.call hr hc hout hout'

variable (h : svc.Alike svc' R out out')

include h

theorem record_together (e : Event) : Together (Abreast R out out' before before')
    (svc.watched.record e) (svc'.watched.record e) := by
  intro p q hp
  obtain ⟨hr, hout⟩ := (h.left q.1).note e ⟨hp.related, rfl⟩
  obtain ⟨hr, hout'⟩ := (h.right _).note e ⟨hr, rfl⟩
  refine ⟨rfl, hr, hp.requests, ?_⟩
  obtain ⟨shown, shown', kept, hs, hs', hk⟩ := hp.output
  exact ⟨shown, shown', kept, hout.trans hs, hout'.trans hs', hk⟩

theorem say_together (text : String) : Together (Abreast R out out' before before')
    (svc.watched.say text) (svc'.watched.say text) := by
  intro p q hp
  obtain ⟨_, p', he, ⟨hr, hout⟩, hlog⟩ := (h.left q.1).say_gives text p ⟨⟨hp.related, rfl⟩, rfl⟩
  obtain ⟨_, q', he', ⟨hr, hout'⟩, hlog'⟩ := (h.right p'.1).say_gives text q ⟨⟨hr, rfl⟩, rfl⟩
  rw [he, he']
  have hp' := hp.call hr (.write _) hout hout'
  rw [← hlog, ← hlog'] at hp'
  exact ⟨rfl, hp'⟩

theorem settle_together : Together (Abreast R out out' before before')
    svc.watched.settle svc'.watched.settle := by
  intro p q hp
  obtain ⟨_, p', he, ⟨hr, hout⟩, hlog⟩ := (h.left q.1).settle_gives p ⟨⟨hp.related, rfl⟩, rfl⟩
  obtain ⟨_, q', he', ⟨hr, hout'⟩, hlog'⟩ := (h.right p'.1).settle_gives q ⟨⟨hr, rfl⟩, rfl⟩
  rw [he, he']
  have hp' := hp.call hr .flush (by simpa using hout) (by simpa using hout')
  rw [← hlog, ← hlog'] at hp'
  exact ⟨rfl, hp'⟩

/-- The engines may answer differently here, and the outputs take different reports. -/
theorem runOnce_together (opts : Options) (ctx : Context) :
    Together (Abreast R out out' before before') (runOnce svc.watched opts ctx)
      (runOnce svc'.watched opts ctx) := by
  rw [runOnce_eq, runOnce_eq]
  refine (h.record_together _).bind fun _ ↦ ?_
  intro p q hp
  obtain ⟨hr, hout, hout'⟩ := h.load ctx opts.stop hp.related
  generalize hl : svc.load ctx opts.stop p.1 = loaded at hr hout
  generalize hl' : svc'.load ctx opts.stop q.1 = loaded' at hr hout'
  obtain ⟨answer, s⟩ := loaded
  obtain ⟨answer', t⟩ := loaded'
  have he : (svc.watched.load ctx opts.stop).attempt p =
      (.ok answer, s, p.2 ++ [.load ctx opts.stop answer]) := by
    change (Except.ok (svc.load ctx opts.stop p.1).1, (svc.load ctx opts.stop p.1).2,
      p.2 ++ [.load ctx opts.stop (svc.load ctx opts.stop p.1).1]) = _
    rw [hl]
  have he' : (svc'.watched.load ctx opts.stop).attempt q =
      (.ok answer', t, q.2 ++ [.load ctx opts.stop answer']) := by
    change (Except.ok (svc'.load ctx opts.stop q.1).1, (svc'.load ctx opts.stop q.1).2,
      q.2 ++ [.load ctx opts.stop (svc'.load ctx opts.stop q.1).1]) = _
    rw [hl']
  obtain ⟨_, p', htell, told, htold, ⟨hr, hs⟩, hlog⟩ :=
    tell_gives (h.left t) answer _ _ (s, _) ⟨⟨hr, rfl⟩, rfl⟩
  obtain ⟨_, q', htell', told', htold', ⟨hr, hs'⟩, hlog'⟩ :=
    tell_gives (h.right p'.1) answer' _ _ (t, _) ⟨⟨hr, rfl⟩, rfl⟩
  rw [Act.bind_apply, Act.bind_apply, he, he']
  dsimp only
  rw [Act.bind_apply, Act.bind_apply, htell, htell']
  have hp' := hp.run ctx opts.stop hr htold htold' (hs.trans (by rw [hout]))
    (hs'.trans (by rw [hout']))
  rw [List.append_assoc, List.singleton_append] at hlog hlog'
  rw [← hlog, ← hlog'] at hp'
  exact ⟨rfl, hp'⟩

theorem watched_match : svc.watched.Match svc'.watched fun _ ↦
    Together (Abreast R out out' before before') where
  pure := .pure
  throw := .throw
  bind := .bind
  start := logged_together fun hr ↦ by
    obtain ⟨hanswer, hanswer', hr, hout, hout'⟩ := h.start hr
    exact ⟨hanswer.trans hanswer'.symm, hr, [], by simpa using hout, by simpa using hout', .start _⟩
  runOnce := h.runOnce_together
  validate script := logged_together fun hr ↦ by
    obtain ⟨hanswer, hr, hout, hout'⟩ := h.validate script hr
    exact ⟨hanswer, hr, [], by simpa using hout, by simpa using hout', .validate script _⟩
  executeCommand ctx line := logged_together fun hr ↦ by
    obtain ⟨hanswer, hr, bs, hout, hout'⟩ := h.executeCommand ctx line hr
    exact ⟨hanswer, hr, bs, hout, hout', .execute ctx line _ bs⟩
  connect endpoint := logged_together fun hr ↦ by
    obtain ⟨hanswer, hr, bs, hout, hout'⟩ := h.connect endpoint hr
    exact ⟨hanswer, hr, bs, hout, hout', .connect endpoint _ bs⟩
  record := h.record_together
  say := h.say_together
  settle := h.settle_together

theorem processCommands_together (ctx : Context) : Together (Abreast R out out' before before')
    (svc.watched.processCommands ctx) (svc'.watched.processCommands ctx) :=
  logged_together fun hr ↦ by
    obtain ⟨hanswer, hr, bs, hout, hout'⟩ := h.processCommands ctx hr
    exact ⟨hanswer, hr, bs, hout, hout', .process ctx _ bs⟩

end Services.Alike

namespace Rehearsal

/-- Stages that differ in what the engine is to answer, in what has happened, and in nothing else. -/
structure Resembles (s t : Stage) : Prop where
  left : s.room = none
  right : t.room = none
  checks : s.checks = t.checks
  consoles : s.consoles = t.consoles
  refuse : s.refuse = t.refuse

theorem Resembles.symm {s t : Stage} (h : Resembles s t) : Resembles t s :=
  ⟨h.right, h.left, h.checks.symm, h.consoles.symm, h.refuse.symm⟩

theorem cast_takes (cwd : Except IoError Path) (t : Stage) :
    (cast cwd).Takes fun shown s ↦ Resembles s t ∧ s.shownBytes = shown where
  write bs shown s h := by
    obtain ⟨hr, rfl⟩ := h
    have he : (cast cwd).write bs s = _ := Stage.write_unlimited bs hr.left
    rw [he]
    exact ⟨rfl, ⟨hr.left, hr.right, hr.checks, hr.consoles, hr.refuse⟩, Stage.shownBytes_shown rfl⟩
  flush h := ⟨rfl, h⟩
  note _ _ _ h := ⟨⟨h.1.left, h.1.right, h.1.checks, h.1.consoles, h.1.refuse⟩, h.2⟩

theorem close_resembles {s t : Stage} (h : Resembles s t) (color : Bool) {c : Console.Close}
    (hroom : c.screen.sink.room = none) :
    (s.close color c).1 = (t.close color c).1 ∧
      Resembles (s.close color c).2 (t.close color c).2 ∧
      ∃ bs, (s.close color c).2.shownBytes = s.shownBytes ++ bs ∧
        (t.close color c).2.shownBytes = t.shownBytes ++ bs :=
  ⟨rfl, ⟨hroom, hroom, h.checks, rfl, h.refuse⟩, _, Stage.shownBytes_shown rfl,
    Stage.shownBytes_shown rfl⟩

theorem cast_alike (cwd : Except IoError Path) :
    (cast cwd).Alike (cast cwd) Resembles Stage.shownBytes Stage.shownBytes where
  start h := ⟨rfl, rfl, ⟨h.left, h.right, h.checks, h.consoles, h.refuse⟩,
    Stage.shownBytes_called rfl, Stage.shownBytes_called rfl⟩
  load _ _ _ _ h := ⟨⟨h.left, h.right, h.checks, h.consoles, h.refuse⟩,
    Stage.shownBytes_called rfl, Stage.shownBytes_called rfl⟩
  validate script s t h := by
    obtain ⟨marks, room, outcomes, checks, consoles, refuse, targets, log⟩ := s
    obtain ⟨marks', room', outcomes', checks', consoles', refuse', targets', log'⟩ := t
    obtain ⟨hroom, hroom', hchecks, hconsoles, hrefuse⟩ := h
    obtain rfl : checks = checks' := hchecks
    cases checks <;> exact ⟨rfl, ⟨hroom, hroom', rfl, hconsoles, hrefuse⟩,
      Stage.shownBytes_called rfl, Stage.shownBytes_called rfl⟩
  processCommands ctx s t h := by
    obtain ⟨marks, room, outcomes, checks, consoles, refuse, targets, log⟩ := s
    obtain ⟨marks', room', outcomes', checks', consoles', refuse', targets', log'⟩ := t
    obtain ⟨hroom, hroom', hchecks, hconsoles, hrefuse⟩ := h
    obtain rfl : room = none := hroom
    obtain rfl : room' = none := hroom'
    obtain rfl : consoles = consoles' := hconsoles
    cases consoles with
    | scripted signals =>
      refine ⟨rfl, ⟨rfl, rfl, hchecks, rfl, hrefuse⟩, [], ?_, ?_⟩ <;>
        rw [List.append_nil] <;> exact Stage.shownBytes_called rfl
    | real lines color =>
      exact close_resembles ⟨rfl, rfl, hchecks, rfl, hrefuse⟩ color
        (Console.converse_limited (n := 0) rfl lines).1
  executeCommand ctx line s t h := by
    obtain ⟨marks, room, outcomes, checks, consoles, refuse, targets, log⟩ := s
    obtain ⟨marks', room', outcomes', checks', consoles', refuse', targets', log'⟩ := t
    obtain ⟨hroom, hroom', hchecks, hconsoles, hrefuse⟩ := h
    obtain rfl : room = none := hroom
    obtain rfl : room' = none := hroom'
    obtain rfl : consoles = consoles' := hconsoles
    cases consoles with
    | scripted signals =>
      refine ⟨rfl, ⟨rfl, rfl, hchecks, rfl, hrefuse⟩, [], ?_, ?_⟩ <;>
        rw [List.append_nil] <;> exact Stage.shownBytes_called rfl
    | real lines color =>
      exact close_resembles ⟨rfl, rfl, hchecks, rfl, hrefuse⟩ color
        (Console.execute_limited (n := 0) rfl line lines).1
  connect endpoint s t h := by
    refine ⟨?_, ⟨h.left, h.right, h.checks, h.consoles, h.refuse⟩, [], ?_, ?_⟩
    · change (if s.refuse then _ else _) = (if t.refuse then _ else _)
      rw [h.refuse]
    all_goals rw [List.append_nil]; exact Stage.shownBytes_called rfl
  left := cast_takes cwd
  right s :=
    have h := cast_takes cwd s
    { write bs shown t ht := by
        have hw := h.write bs ⟨ht.1.symm, ht.2⟩
        exact ⟨hw.1, hw.2.1.symm, hw.2.2⟩
      flush := fun ht ↦ ⟨rfl, ht⟩
      note := fun e _ _ ht ↦
        have hn := h.note e ⟨ht.1.symm, ht.2⟩
        ⟨hn.1.symm, hn.2⟩ }

end Rehearsal

/-- Whatever two engines answer to the runs of a session, run by run: the session asks the same of the
services in the same order, ends alike, and shows the same but for the reports about the runs. -/
theorem Session.outcomes_never_steer {svc : Services σ} {svc' : Services τ} {R : σ → τ → Prop}
    {out : σ → Bytes} {out' : τ → Bytes} (h : svc.Alike svc' R out out') (env : Environment)
    (opts : Options) (steps : Nat) {s : σ} {t : τ} (hs : R s t) :
    (run svc env opts steps s).1 = (run svc' env opts steps t).1 ∧
    (serviceCalls (calls svc env opts steps s)).map Call.request =
      (serviceCalls (calls svc' env opts steps t)).map Call.request ∧
    ∃ shown shown' kept, out (run svc env opts steps s).2 = out s ++ shown ∧
      out' (run svc' env opts steps t).2 = out' t ++ shown' ∧
      Trimmed (calls svc env opts steps s) shown kept ∧
      Trimmed (calls svc' env opts steps t) shown' kept := by
  have hstart : Services.Alike.Abreast R out out' (out s) (out' t) (s, []) (t, []) :=
    ⟨hs, rfl, [], [], [], by simp, by simp, .nil, .nil⟩
  obtain ⟨hanswer, hp⟩ := runFrom_matches h.watched_match env opts h.processCommands_together steps
    .modeSelect _ _ hstart
  have hrun := run_watched svc env opts steps s
  have hrun' := run_watched svc' env opts steps t
  rw [run] at hrun hrun'
  rw [hrun, hrun'] at hanswer hp
  exact ⟨hanswer, hp.requests, hp.output⟩

/-- Three runs that all go well, and three of which none does. -/
theorem Session.outcomes_never_steer_three_runs :
    let svc := Rehearsal.cast (.ok ⟨[Path.slash]⟩)
    let opts : Options := { target := some "app" }
    let consoles : Rehearsal.Consoles := .scripted [.restart, .resume]
    let well : Rehearsal.Stage := { consoles }
    let badly : Rehearsal.Stage :=
      { consoles, outcomes := [.fault "gone", .failure ⟨"boom", ["from app"]⟩, .fault "lost"] }
    Rehearsal.Resembles well badly ∧
      (run svc .bare opts 20 well).2.shownBytes = [] ∧
      (run svc .bare opts 20 badly).2.shownBytes =
        Utf8.encode "Engine error: gone\nboom\n\tfrom app\nEngine error: lost\n" ∧
      (serviceCalls (calls svc .bare opts 20 badly)).length = 10 ∧
      (run svc .bare opts 20 well).1 = (run svc .bare opts 20 badly).1 ∧
      (serviceCalls (calls svc .bare opts 20 well)).map Call.request =
        (serviceCalls (calls svc .bare opts 20 badly)).map Call.request := by
  intro svc opts consoles well badly
  have hs : Rehearsal.Resembles well badly := ⟨rfl, rfl, rfl, rfl, rfl⟩
  have h := outcomes_never_steer (Rehearsal.cast_alike (.ok ⟨[Path.slash]⟩)) .bare opts 20 hs
  exact ⟨hs, by decide +kernel, by decide +kernel, by decide +kernel, h.1, h.2.1⟩

end DebugSession
