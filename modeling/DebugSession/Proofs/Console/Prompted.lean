import DebugSession.Proofs.Console.Frame
import DebugSession.Proofs.Console.Limit

/-!
A command session against its lines carried out one by one. A session reads up to the first line that ends
it and does to the context and the screen what those lines do by themselves, each behind a prompt, so that
sessions on one input share its lines out among them.
-/

namespace DebugSession.Console

section Ends

variable {cwd : Except IoError Path} {ctx : Context} {screen : Screen} {line : String}

/-- Lines that end a command session. -/
def ends (line : String) : Bool := quits line || relaunches line

theorem ends_iff : ends line ↔
    Command.ofLine line = .quit ∨ Command.ofLine line = .resume ∨
      ∃ script, Command.ofLine line = .restart script := by
  rw [ends, Bool.or_eq_true, quits_iff, relaunches_iff]

theorem perform_continues (cwd : Except IoError Path) (ctx : Context) (h : ends line = false) :
    ∃ reply, (Command.ofLine line).perform cwd ctx = .ok reply ∧ reply.signal = none := by
  rw [← Bool.not_eq_true, ends_iff] at h
  cases hc : Command.ofLine line with
  | resume | restart | quit => simp [hc] at h
  | nothing | info | help | unknown => exact ⟨_, rfl, rfl⟩
  | set name value =>
    rw [Command.perform]
    cases Setting.ofName? name with
    | none => exact ⟨_, rfl, rfl⟩
    | some setting =>
      dsimp only
      cases readSwitch? value with
      | none => exact ⟨_, rfl, rfl⟩
      | some on => exact ⟨_, rfl, rfl⟩

end Ends

section Answers

variable {cwd : Except IoError Path} {ctx left : Context} {screen after : Screen}

/-- Shows a prompt where `close` left off and carries out a line by itself. -/
def Close.answer (cwd : Except IoError Path) (close : Close) (line : String) : Close :=
  execute cwd close.context line (close.screen.show .prompt).2 close.rest

/-- Carries out lines one by one. -/
def answerAll (cwd : Except IoError Path) (ctx : Context) (screen : Screen) (rest : List Bytes)
    (lines : List String) : Close :=
  lines.foldl (Close.answer cwd) ⟨.ok .resume, ctx, screen, rest⟩

theorem answer_unlimited {close : Close} (h : close.screen.sink.room = none) (line : String) :
    (close.answer cwd line).screen.sink.room = none := by
  obtain ⟨shown, hshown, hroom⟩ := Screen.show_unlimited h .prompt
  rw [Close.answer, hshown]
  exact (execute_limited (n := 0) hroom line close.rest).1

theorem foldl_answer_unlimited {close : Close} (h : close.screen.sink.room = none)
    (lines : List String) : (lines.foldl (Close.answer cwd) close).screen.sink.room = none := by
  induction lines generalizing close with
  | nil => exact h
  | cons line lines ih => exact ih (answer_unlimited h line)

/-- The end of a session that finds nothing left to read. -/
def Close.exhausted (close : Close) : Close :=
  { close with result := .ok .quit, screen := (close.screen.showAll [.prompt, .plain "\n"]).2 }

/-- The end of a session that reads a line which is no text. -/
def Close.garbled (close : Close) : Close :=
  { close with result := .error (.io .notUtf8), screen := (close.screen.show .prompt).2 }

/-- How a command session closes that has read `heard` and left `rest`. -/
inductive Converses (cwd : Except IoError Path) (ctx : Context) (screen : Screen) :
    (heard rest : List Bytes) → Close → Prop
  | exhausted (lines : List String) : (∀ line ∈ lines, ends line = false) →
      Converses cwd ctx screen (lines.map Utf8.encode) [] (answerAll cwd ctx screen [] lines).exhausted
  | ended (lines : List String) {line : String} {rest : List Bytes} :
      (∀ line ∈ lines, ends line = false) → ends line →
      Converses cwd ctx screen ((lines ++ [line]).map Utf8.encode) rest
        (answerAll cwd ctx screen rest (lines ++ [line]))
  | garbled (lines : List String) {line : Bytes} {rest : List Bytes} :
      (∀ line ∈ lines, ends line = false) → Utf8.decode? line = none →
      Converses cwd ctx screen (lines.map Utf8.encode ++ [line]) rest
        (answerAll cwd ctx screen rest lines).garbled

theorem Converses.cons {heard rest : List Bytes} {close : Close} {line : String}
    (hl : ends line = false)
    (he : ∀ rest, execute cwd ctx line (screen.show .prompt).2 rest = ⟨.ok .resume, left, after, rest⟩)
    (h : Converses cwd left after heard rest close) :
    Converses cwd ctx screen (Utf8.encode line :: heard) rest close := by
  have hanswer (rest : List Bytes) (lines : List String) :
      answerAll cwd left after rest lines = answerAll cwd ctx screen rest (line :: lines) := by
    rw [answerAll, answerAll, List.foldl_cons, Close.answer, he]
  cases h with
  | exhausted lines hc =>
    rw [hanswer]
    exact .exhausted (line :: lines) (List.forall_mem_cons.mpr ⟨hl, hc⟩)
  | ended lines hc hends =>
    rw [hanswer]
    exact .ended (line :: lines) (List.forall_mem_cons.mpr ⟨hl, hc⟩) hends
  | garbled lines hc hline =>
    rw [hanswer]
    exact .garbled (line :: lines) (List.forall_mem_cons.mpr ⟨hl, hc⟩) hline

/-- Where there is a current directory, a session that reads only text ends with a signal. -/
theorem Converses.signals {dir : Path} {heard rest : List Bytes} {close : Close}
    (h : Converses (.ok dir) ctx screen heard rest close) (hroom : screen.sink.room = none)
    (htext : ∀ line ∈ heard, (Utf8.decode? line).isSome) : ∃ signal, close.result = .ok signal := by
  cases h with
  | exhausted => exact ⟨.quit, rfl⟩
  | garbled _ _ hline =>
    have hsome := htext _ (List.mem_append_right _ List.mem_cons_self)
    rw [hline] at hsome
    cases hsome
  | @ended lines line _ _ _ =>
    have hbefore : (answerAll (.ok dir) ctx screen rest lines).screen.sink.room = none :=
      foldl_answer_unlimited hroom lines
    have hlast : answerAll (.ok dir) ctx screen rest (lines ++ [line]) =
        (answerAll (.ok dir) ctx screen rest lines).answer (.ok dir) line :=
      List.foldl_append
    rw [hlast]
    generalize answerAll (.ok dir) ctx screen rest lines = before at hbefore ⊢
    obtain ⟨shown, hshown, hfree⟩ := Screen.show_unlimited hbefore .prompt
    obtain ⟨reply, hreply, -⟩ := perform_ofLine dir before.context line
    obtain ⟨-, hresult⟩ := execute_cases hreply shown before.rest
    rw [Close.answer, hshown]
    obtain hok | ⟨-, hlimited⟩ := hresult
    · exact ⟨_, hok⟩
    · exact absurd hfree hlimited

end Answers

section Turns

variable {cwd : Except IoError Path}

end Turns

end DebugSession.Console
