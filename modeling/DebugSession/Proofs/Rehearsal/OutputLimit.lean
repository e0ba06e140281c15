import DebugSession.Proofs.Console.Limit
import DebugSession.Proofs.Rehearsal.Ends

/-!
A rehearsal in front of an output that takes a number of octets and no more. Two runs are compared, one
with the limit and one without: they are the same up to the write that does not fit, and that write is the
last thing that the limited one does.
-/

namespace DebugSession.Rehearsal

section Cut

def Mark.bytes : Mark → Bytes
  | .called _ => []
  | .shown bs => bs

def shownIn (marks : List Mark) : Bytes := marks.flatMap Mark.bytes

def callsIn (marks : List Mark) : List String :=
  marks.filterMap fun m ↦
    match m with
    | .called entry => some entry
    | .shown _ => none

/-- The marks that a request leaves: an entry of the journal, or octets shown. Real consoles are in no
journal, and show what they show. -/
inductive Leaves : Request → Mark → Prop
  | start : Leaves .start (.called "start")
  | validate (script : Path) : Leaves (.validate script) (.called ("validate " ++ script.shortText))
  | load (ctx : Context) (stop : Bool) :
      Leaves (.load ctx stop) (.called (Stage.launchEntry ctx stop))
  | connect (endpoint : Endpoint) :
      Leaves (.connect endpoint) (.called ("connect " ++ endpoint.text))
  | write (bs : Bytes) : Leaves (.write bs) (.shown bs)
  | execute (ctx : Context) (line : String) : Leaves (.execute ctx line) (.called ("rc " ++ line))
  | executeReal (ctx : Context) (line : String) (bs : Bytes) : Leaves (.execute ctx line) (.shown bs)
  | process (ctx : Context) :
      Leaves (.process ctx) (.called ("commands " ++ ctx.target.shortText))
  | processReal (ctx : Context) (bs : Bytes) : Leaves (.process ctx) (.shown bs)

/-- The marks of some calls, one for each that does not only flush the output. -/
inductive Marked : List Call → List Mark → Prop
  | nil : Marked [] []
  | flush {calls : List Call} {marks : List Mark} (answer : Except IoError Unit) :
      Marked calls marks → Marked (.flush answer :: calls) marks
  | cons {c : Call} {m : Mark} {calls : List Call} {marks : List Mark} :
      Leaves c.request m → Marked calls marks → Marked (c :: calls) (m :: marks)

/-- What is left of `calls` and their `marks` when the output takes `n` octets: all before the call in
which octet `n + 1` would be shown, that call with some other answer, and the octets of it that fit. -/
inductive Cut (n : Nat) : (calls : List Call) → (marks : List Mark) → (made : List Call) →
    (kept : List Mark) → Prop
  | intro {pre post : List Call} {c c' : Call} {before after : List Mark} {bs : Bytes} :
      Marked pre before → Leaves c.request (.shown bs) → Marked post after →
      c'.request = c.request → (shownIn before).length ≤ n →
      n < (shownIn before).length + bs.length →
      Cut n (pre ++ c :: post) (before ++ .shown bs :: after) (pre ++ [c'])
        (before ++ [.shown (bs.take (n - (shownIn before).length))])

variable {n : Nat} {calls made later : List Call} {marks kept more : List Mark}

theorem shownIn_append (marks more : List Mark) :
    shownIn (marks ++ more) = shownIn marks ++ shownIn more :=
  List.flatMap_append

theorem callsIn_append (marks more : List Mark) :
    callsIn (marks ++ more) = callsIn marks ++ callsIn more :=
  List.filterMap_append

theorem shownIn_shown (bs : Bytes) : shownIn [.shown bs] = bs := by simp [shownIn, Mark.bytes]

theorem Marked.append (h : Marked calls marks) (h' : Marked later more) :
    Marked (calls ++ later) (marks ++ more) := by
  induction h with
  | nil => exact h'
  | flush answer _ ih => exact .flush answer ih
  | cons hl _ ih => exact .cons hl ih

theorem Cut.one {c c' : Call} {bs : Bytes} (hc : Leaves c.request (.shown bs))
    (hsame : c'.request = c.request) (h : n < bs.length) :
    Cut n [c] [.shown bs] [c'] [.shown (bs.take n)] := by
  have hlt : n < (shownIn []).length + bs.length := by simpa [shownIn] using h
  exact @Cut.intro n [] [] c c' [] [] bs .nil hc .nil hsame (Nat.zero_le n) hlt

theorem Cut.append (h : Cut n calls marks made kept) (hmore : Marked later more) :
    Cut n (calls ++ later) (marks ++ more) made kept := by
  obtain ⟨hpre, hc, hpost, hsame, hle, hlt⟩ := h
  rw [List.append_assoc, List.append_assoc, List.cons_append, List.cons_append]
  exact .intro hpre hc (hpost.append hmore) hsame hle hlt

theorem Cut.behind (hmarks : Marked calls marks) (hle : (shownIn marks).length ≤ n)
    (h : Cut (n - (shownIn marks).length) later more made kept) :
    Cut n (calls ++ later) (marks ++ more) (calls ++ made) (marks ++ kept) := by
  obtain ⟨hpre, hc, hpost, hsame, hle', hlt⟩ := h
  rw [← List.append_assoc, ← List.append_assoc, ← List.append_assoc, ← List.append_assoc,
    Nat.sub_sub, ← List.length_append, ← shownIn_append]
  refine .intro (hmarks.append hpre) hc hpost hsame ?_ ?_
  · rw [shownIn_append, List.length_append]
    omega
  · rw [shownIn_append, List.length_append]
    omega

/-- What is kept shows exactly the octets that there is room for. -/
theorem Cut.shown (h : Cut n calls marks made kept) :
    n < (shownIn marks).length ∧ shownIn kept = (shownIn marks).take n := by
  obtain @⟨_, _, _, _, before, after, bs, _, _, _, _, hle, hlt⟩ := h
  have hcons : shownIn (.shown bs :: after) = bs ++ shownIn after := rfl
  rw [shownIn_append, shownIn_append, hcons, shownIn_shown]
  refine ⟨by simp only [List.length_append]; omega, ?_⟩
  rw [List.take_append, List.take_of_length_le hle, List.take_append_of_le_length (by omega)]

theorem Cut.callsIn_prefix (h : Cut n calls marks made kept) : callsIn kept <+: callsIn marks := by
  obtain @⟨_, _, _, _, before, after, bs, _, _, _, _, _, _⟩ := h
  rw [callsIn_append, callsIn_append]
  exact ⟨callsIn after, by simp [callsIn]⟩

theorem Cut.requests_prefix (h : Cut n calls marks made kept) :
    made.map Call.request <+: calls.map Call.request := by
  obtain @⟨pre, post, c, c', _, _, _, _, _, _, hsame, _, _⟩ := h
  rw [List.map_append, List.map_append, List.map_singleton, List.map_cons, hsame]
  exact ⟨post.map Call.request, by simp⟩

end Cut

def Stage.limit (s : Stage) (n : Nat) : Stage := { s with room := some n }

/-- From `p` to `q`, `calls` were made and `marks` were left. -/
structure Adds (p q : Stage × List Call) (calls : List Call) (marks : List Mark) : Prop where
  log : q.2 = p.2 ++ calls
  marks : q.1.marks = marks.reverse ++ p.1.marks

variable {α β : Type} {n : Nat} {s : Stage} {p q r : Stage × List Call} {calls more : List Call}
  {marks later : List Mark}

theorem Adds.trans (h : Adds p q calls marks) (h' : Adds q r more later) :
    Adds p r (calls ++ more) (marks ++ later) where
  log := by rw [h'.log, h.log, List.append_assoc]
  marks := by rw [h'.marks, h.marks, List.reverse_append, List.append_assoc]

/-- From `p`, `free` is what happens when the output takes everything and `cut` what happens when it takes
`n` octets. -/
def Limited (n : Nat) (p : Stage × List Call) (free cut : Except Fault α × Stage × List Call) : Prop :=
  free.2.1.room = none ∧ ∃ calls marks, Marked calls marks ∧ Adds p free.2 calls marks ∧
    ((shownIn marks).length ≤ n ∧
        cut = (free.1, free.2.1.limit (n - (shownIn marks).length), free.2.2) ∨
      ∃ made kept, Cut n calls marks made kept ∧ cut.1 = .error (.io .sinkFull) ∧
        Adds p cut.2 made kept)

/-- An act that an output without room stops, wherever in it that happens. -/
def FailStop (act : Act (Stage × List Call) α) : Prop :=
  ∀ p n, p.1.room = none → Limited n p (act p) (act (p.1.limit n, p.2))

/-- From the stage `s`, `free` is the answer to a request when the output takes everything and `cut` when
it takes `n` octets. The caller sees an answer as `view` has it. -/
def Curbed (view : β → Except Fault α) (n : Nat) (s : Stage) (asked : Request)
    (free cut : β × Stage) : Prop :=
  free.2.room = none ∧ ∃ m, Leaves asked m ∧ free.2.marks = m :: s.marks ∧
    (m.bytes.length ≤ n ∧ cut = (free.1, free.2.limit (n - m.bytes.length)) ∨
      ∃ bs, m = .shown bs ∧ n < bs.length ∧ view cut.1 = .error (.io .sinkFull) ∧
        cut.2.marks = .shown (bs.take n) :: s.marks)

theorem Curbed.quiet {view : β → Except Fault α} (act : StateM Stage β) {asked : Request}
    {entry : String} (hl : Leaves asked (.called entry)) (hroom : s.room = none)
    (hmarks : (act s).2.marks = .called entry :: s.marks)
    (hsame : ∀ room, act { s with room } = ((act s).1, { (act s).2 with room })) :
    Curbed view n s asked (act s) (act (s.limit n)) := by
  have hfree : (act s).2.room = none := by
    have hs := hsame none
    rw [← hroom] at hs
    exact (congrArg (·.2.room) hs).trans hroom
  exact ⟨hfree, _, hl, hmarks, .inl ⟨Nat.zero_le n, hsame (some n)⟩⟩

namespace FailStop

variable {act : Act (Stage × List Call) α} {f : α → Act (Stage × List Call) β}

theorem silent (h : ∀ p, ∃ calls, Marked calls [] ∧ Adds p (act p).2 calls [] ∧
    ∀ room, act ({ p.1 with room }, p.2) =
      ((act p).1, { (act p).2.1 with room }, (act p).2.2)) : FailStop act := by
  intro p n hroom
  obtain ⟨calls, hmarked, hadds, hsame⟩ := h p
  have hfree : (act p).2.1.room = none := by
    have hs := hsame none
    rw [← hroom] at hs
    exact (congrArg (·.2.1.room) hs).trans hroom
  exact ⟨hfree, calls, [], hmarked, hadds, .inl ⟨Nat.zero_le n, hsame (some n)⟩⟩

theorem pure (a : α) : FailStop (pure a : Act (Stage × List Call) α) :=
  silent fun p ↦ ⟨[], .nil, ⟨(List.append_nil p.2).symm, rfl⟩, fun _ ↦ rfl⟩

theorem bind (h : FailStop act) (hf : ∀ a, FailStop (f a)) : FailStop (act >>= f) := by
  intro p n hroom
  have hact := h p n hroom
  rw [Act.bind_apply, Act.bind_apply]
  generalize act p = free at hact ⊢
  generalize act (p.1.limit n, p.2) = cut at hact ⊢
  obtain ⟨hfree, calls, marks, hmarked, hadds, hcut⟩ := hact
  obtain ⟨e | a, t⟩ := free
  · refine ⟨hfree, calls, marks, hmarked, hadds, ?_⟩
    obtain ⟨hle, rfl⟩ | ⟨made, kept, hcut, herror, hkept⟩ := hcut
    · exact .inl ⟨hle, rfl⟩
    · obtain ⟨answer, u⟩ := cut
      obtain rfl : answer = _ := herror
      exact .inr ⟨made, kept, hcut, rfl, hkept⟩
  · obtain ⟨hle, rfl⟩ | ⟨made, kept, hcut, herror, hkept⟩ := hcut
    · obtain ⟨hfree, more, later, hmarked', hadds', hrest⟩ :=
        hf a t (n - (shownIn marks).length) hfree
      refine ⟨hfree, _, _, hmarked.append hmarked', hadds.trans hadds', ?_⟩
      obtain ⟨hle', hrest⟩ | ⟨made, kept, hcut, herror, hkept⟩ := hrest
      · refine .inl ⟨by rw [shownIn_append, List.length_append]; omega, ?_⟩
        rw [shownIn_append, List.length_append, ← Nat.sub_sub]
        exact hrest
      · exact .inr ⟨_, _, hcut.behind hmarked hle, herror, hadds.trans hkept⟩
    · -- The second act is not reached, so that any room for it tells what it would show.
      obtain ⟨hfree, more, later, hmarked', hadds', -⟩ := hf a t 0 hfree
      obtain ⟨answer, u⟩ := cut
      obtain rfl : answer = _ := herror
      exact ⟨hfree, _, _, hmarked.append hmarked', hadds.trans hadds',
        .inr ⟨made, kept, hcut.append hmarked', rfl, hkept⟩⟩

theorem of_request (act : StateM Stage β) (view : β → Except Fault α) (call : β → Call)
    {watched : Act (Stage × List Call) α} {asked : Request}
    (hw : ∀ p, watched p = (view (act p.1).1, (act p.1).2, p.2 ++ [call (act p.1).1]))
    (hasked : ∀ answer, (call answer).request = asked)
    (h : ∀ s n, s.room = none → Curbed view n s asked (act s) (act (s.limit n))) :
    FailStop watched := by
  intro p n hroom
  rw [hw, hw]
  obtain ⟨hfree, m, hl, hmarks, hcut⟩ := h p.1 n hroom
  have hmarked : Marked [call (act p.1).1] [m] := .cons (hasked _ ▸ hl) .nil
  refine ⟨hfree, _, _, hmarked, ⟨rfl, hmarks⟩, ?_⟩
  have hone : shownIn [m] = m.bytes := List.append_nil m.bytes
  obtain ⟨hle, he⟩ | ⟨bs, rfl, hlt, hfull, hkept⟩ := hcut
  · rw [hone, he]
    exact .inl ⟨hle, rfl⟩
  · have hcut : Cut n [call (act p.1).1] [.shown bs] [call (act (p.1.limit n)).1] [.shown (bs.take n)] :=
      .one (hasked _ ▸ hl) (by rw [hasked, hasked]) hlt
    exact .inr ⟨_, _, hcut, hfull, rfl, hkept⟩

end FailStop

section Cast

variable (cwd : Except IoError Path)

theorem validate_curbed (script : Path) (hroom : s.room = none) :
    Curbed id n s (.validate script) ((cast cwd).validate script s)
      ((cast cwd).validate script (s.limit n)) := by
  obtain ⟨marks, room, outcomes, _ | ⟨v, checks⟩, consoles, refuse, targets, log⟩ := s
  · exact .quiet ((cast cwd).validate script) (.validate script) hroom rfl fun _ ↦ rfl
  · exact .quiet ((cast cwd).validate script) (.validate script) hroom rfl fun _ ↦ rfl

theorem write_curbed (bs : Bytes) (hroom : s.room = none) :
    Curbed (Except.mapError .io) n s (.write bs) ((cast cwd).write bs s)
      ((cast cwd).write bs (s.limit n)) := by
  obtain ⟨marks, room, outcomes, checks, consoles, refuse, targets, log⟩ := s
  obtain rfl : room = none := hroom
  have hwrite (s : Stage) : (cast cwd).write bs s = ((Sink.write bs { room := s.room }).1,
      { s with
        marks := .shown (Sink.write bs { room := s.room }).2.bytes :: s.marks
        room := (Sink.write bs { room := s.room }).2.room }) := rfl
  rw [hwrite, hwrite]
  refine ⟨rfl, .shown bs, .write bs, by simp [Sink.write, Sink.bytes], ?_⟩
  dsimp only [Stage.limit, Mark.bytes]
  by_cases hle : bs.length ≤ n
  · have hfit : Sink.write bs { room := some n } = (.ok (), ⟨[bs], some (n - bs.length)⟩) :=
      Sink.write_of_fits hle []
    exact .inl ⟨hle, by rw [hfit]; rfl⟩
  · have hover : Sink.write bs { room := some n } =
        (.error .sinkFull, ⟨[bs.take n], some 0⟩) := Sink.write_of_overflows (Nat.lt_of_not_le hle) []
    refine .inr ⟨bs, rfl, by omega, ?_, ?_⟩
    · rw [hover]
      rfl
    · rw [hover]
      simp [Sink.bytes]

theorem close_curbed {asked : Request} {color : Bool} {free cut : Console.Close}
    (hl : ∀ bs, Leaves asked (.shown bs)) (h : Console.Limited n { color } free cut) :
    Curbed id n s asked (s.close color free) ((s.limit n).close color cut) := by
  obtain ⟨hroom, out, hout, hcut⟩ := h
  have hbytes : free.screen.sink.bytes = out := hout
  refine ⟨hroom, .shown out, hl out, by rw [← hbytes]; rfl, ?_⟩
  obtain ⟨hle, rfl⟩ | ⟨hlt, hstopped, hkept⟩ := hcut
  · exact .inl ⟨hle, rfl⟩
  · have hkept : cut.screen.sink.bytes = out.take n := hkept
    have hr : cut.result = .error (.io .sinkFull) := hstopped
    refine .inr ⟨out, rfl, hlt, ?_, ?_⟩
    · rw [Stage.close, hr]
      rfl
    · rw [Stage.close, hkept]
      rfl

theorem processCommands_curbed (ctx : Context) (hroom : s.room = none) :
    Curbed id n s (.process ctx) ((cast cwd).processCommands ctx s)
      ((cast cwd).processCommands ctx (s.limit n)) := by
  obtain ⟨marks, room, outcomes, checks, consoles, refuse, targets, log⟩ := s
  obtain rfl : room = none := hroom
  cases consoles with
  | scripted signals => exact ⟨rfl, _, .process ctx, rfl, .inl ⟨Nat.zero_le n, rfl⟩⟩
  | real lines color =>
    exact close_curbed (.processReal ctx) (Console.converse_limited rfl lines)

theorem executeCommand_curbed (ctx : Context) (line : String) (hroom : s.room = none) :
    Curbed id n s (.execute ctx line) ((cast cwd).executeCommand ctx line s)
      ((cast cwd).executeCommand ctx line (s.limit n)) := by
  obtain ⟨marks, room, outcomes, checks, consoles, refuse, targets, log⟩ := s
  obtain rfl : room = none := hroom
  cases consoles with
  | scripted signals => exact ⟨rfl, _, .execute ctx line, rfl, .inl ⟨Nat.zero_le n, rfl⟩⟩
  | real lines color =>
    exact close_curbed (.executeReal ctx line) (Console.execute_limited rfl line lines)

theorem processCommands_failStop (ctx : Context) :
    FailStop ((cast cwd).watched.processCommands ctx) :=
  .of_request ((cast cwd).processCommands ctx) id (.process ctx) (fun _ ↦ rfl) (fun _ ↦ rfl)
    fun _ _ ↦ processCommands_curbed cwd ctx

end Cast

theorem cast_failStop (cwd : Except IoError Path) :
    (cast cwd).watched.Upholds fun _ act ↦ FailStop act where
  pure := .pure
  throw _ := .silent fun p ↦ ⟨[], .nil, ⟨(List.append_nil p.2).symm, rfl⟩, fun _ ↦ rfl⟩
  bind := .bind
  start := .of_request (cast cwd).start id .start (fun _ ↦ rfl) (fun _ ↦ rfl) fun _ _ hroom ↦
    .quiet (cast cwd).start .start hroom rfl fun _ ↦ rfl
  -- A fault of the engine is no fault of the output, so that it may be caught.
  attempt ctx stop := .of_request ((cast cwd).load ctx stop) .ok (.load ctx stop) (fun _ ↦ rfl)
    (fun _ ↦ rfl) fun _ _ hroom ↦
      .quiet ((cast cwd).load ctx stop) (.load ctx stop) hroom rfl fun _ ↦ rfl
  validate script := .of_request ((cast cwd).validate script) id (.validate script) (fun _ ↦ rfl)
    (fun _ ↦ rfl) fun _ _ ↦ validate_curbed cwd script
  executeCommand ctx line := .of_request ((cast cwd).executeCommand ctx line) id
    (.execute ctx line) (fun _ ↦ rfl) (fun _ ↦ rfl) fun _ _ ↦ executeCommand_curbed cwd ctx line
  connect endpoint := .of_request ((cast cwd).connect endpoint) id (.connect endpoint)
    (fun _ ↦ rfl) (fun _ ↦ rfl) fun _ _ hroom ↦
      .quiet ((cast cwd).connect endpoint) (.connect endpoint) hroom rfl fun _ ↦ rfl
  record _ := .silent fun p ↦ ⟨[], .nil, ⟨(List.append_nil p.2).symm, rfl⟩, fun _ ↦ rfl⟩
  say text := .of_request ((cast cwd).write (Utf8.encode text)) (Except.mapError .io)
    (.write (Utf8.encode text)) (fun _ ↦ rfl) (fun _ ↦ rfl) fun _ _ ↦
      write_curbed cwd (Utf8.encode text)
  settle := .silent fun _ ↦ ⟨_, .flush _ .nil, ⟨rfl, rfl⟩, fun _ ↦ rfl⟩

/-- What the stand-ins are told before a rehearsal. -/
structure Script where
  outcomes : List Outcome := []
  checks : List Verdict := []
  consoles : Consoles := .scripted []
  refuse : Bool := false

def Script.stage (script : Script) (room : Option Nat) : Stage where
  room
  outcomes := script.outcomes
  checks := script.checks
  consoles := script.consoles
  refuse := script.refuse

def rehearsedCalls (env : Session.Environment) (opts : Options) (s : Stage) : List Call :=
  Session.calls (cast env.files.currentDir) env opts (Session.stepsFor s.sessions) s

theorem rehearse_failStop (env : Session.Environment) (opts : Options) (script : Script) (n : Nat) :
    let free := rehearse env opts (script.stage none)
    let cut := rehearse env opts (script.stage (some n))
    Limited n (script.stage none, [])
      (free.1, free.2, rehearsedCalls env opts (script.stage none))
      (cut.1, cut.2, rehearsedCalls env opts (script.stage (some n))) := by
  intro free cut
  have h := Session.runFrom_upholds (cast_failStop env.files.currentDir) env opts
    (processCommands_failStop env.files.currentDir) (Session.stepsFor (script.stage none).sessions)
    .modeSelect (script.stage none, []) n rfl
  have hfree := Session.run_watched (cast env.files.currentDir) env opts
    (Session.stepsFor (script.stage none).sessions) (script.stage none)
  have hcut := Session.run_watched (cast env.files.currentDir) env opts
    (Session.stepsFor (script.stage (some n)).sessions) (script.stage (some n))
  rw [Session.run] at hfree hcut
  rw [hfree] at h
  exact hcut ▸ h

theorem shownBytes_eq (s : Stage) : s.shownBytes = shownIn s.marks.reverse := by
  rw [Stage.shownBytes, shownIn, List.flatMap_def]
  congr 1

theorem journal_eq (s : Stage) : s.journal.entries = callsIn s.marks.reverse := rfl

/-- A rehearsal with an output for `n` octets. If it would show no more than that until it ends, the limit
changes nothing; else it ends with the fault of the output, shows the first `n` octets, and makes the
calls up to the one in which octet `n + 1` is to be shown, and no other. -/
theorem output_limit_stops (env : Session.Environment) (opts : Options) (script : Script) (n : Nat) :
    let free := rehearse env opts (script.stage none)
    let cut := rehearse env opts (script.stage (some n))
    let freeCalls := rehearsedCalls env opts (script.stage none)
    let cutCalls := rehearsedCalls env opts (script.stage (some n))
    free.1 ≠ .ok none ∧
    (free.2.shownBytes.length ≤ n → cut.1 = free.1 ∧ cut.2.shownBytes = free.2.shownBytes ∧
      cut.2.journal = free.2.journal ∧ cutCalls = freeCalls) ∧
    (n < free.2.shownBytes.length → cut.1 = .error (.io .sinkFull) ∧
      cut.2.shownBytes = free.2.shownBytes.take n ∧
      cut.2.journal.entries <+: free.2.journal.entries ∧
      cutCalls.map Call.request <+: freeCalls.map Call.request ∧
      Cut n freeCalls free.2.marks.reverse cutCalls cut.2.marks.reverse) := by
  intro free cut freeCalls cutCalls
  obtain ⟨-, calls, marks, -, hadds, hcut⟩ := rehearse_failStop env opts script n
  have hmarks : free.2.marks.reverse = marks := by
    rw [hadds.marks]
    simp [Script.stage]
  have hcalls : freeCalls = calls := hadds.log
  have hfree : free.2.shownBytes = shownIn marks := by rw [shownBytes_eq, hmarks]
  refine ⟨rehearse_ends env opts _, ?_⟩
  rw [hfree]
  obtain ⟨hle, hsame⟩ | ⟨made, kept, hkept, herror, hadds'⟩ := hcut
  · have hmarks' : cut.2.marks = free.2.marks := congrArg (·.2.1.marks) hsame
    refine ⟨fun _ ↦ ⟨congrArg (·.1) hsame, ?_, ?_, congrArg (·.2.2) hsame⟩,
      fun hlt ↦ absurd hle (by omega)⟩
    · rw [shownBytes_eq, hmarks', hmarks]
    · rw [Stage.journal, Stage.journal, hmarks']
  · have hmarks' : cut.2.marks.reverse = kept := by
      rw [hadds'.marks]
      simp [Script.stage]
    have hcalls' : cutCalls = made := hadds'.log
    rw [shownBytes_eq, journal_eq, journal_eq, hmarks, hmarks', hcalls, hcalls']
    obtain ⟨hlong, hshown⟩ := hkept.shown
    exact ⟨fun hshort ↦ absurd hshort (by omega), fun _ ↦
      ⟨herror, hshown, hkept.callsIn_prefix, hkept.requests_prefix, hkept⟩⟩

end DebugSession.Rehearsal
