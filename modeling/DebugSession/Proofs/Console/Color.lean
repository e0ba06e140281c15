import DebugSession.Proofs.Console.CommandFile

/-!
A console with colour and one without. What steps come to is told without a screen, the pieces they show
included, and a screen of either kind adds those pieces in its own rendering: with colour only the prompts
and the complaints are written otherwise.
-/

namespace DebugSession.Console

/-- What a console may be asked for: a command session on the lines that are left, or one line. -/
inductive Act where
  | converse
  | execute (line : String)
  deriving DecidableEq, Repr

/-- An act that goes on where the last one closed, whether that failed or not. -/
def Close.andThen (cwd : Except IoError Path) (close : Close) : Act → Close
  | .converse => Console.converse cwd close.context close.screen close.rest
  | .execute line => Console.execute cwd close.context line close.screen close.rest

/-- The close of the last of some acts. -/
def actAll (cwd : Except IoError Path) (ctx : Context) (lines : List Bytes) (screen : Screen)
    (acts : List Act) : Close :=
  acts.foldl (Close.andThen cwd) ⟨.ok .resume, ctx, screen, lines⟩

section Tales

/-- What acts come to, told without a screen: a close with the pieces shown on the way. -/
structure Tale where
  result : Except Fault Signal
  context : Context
  rest : List Bytes
  pieces : List Piece

def Tale.prepend (ps : List Piece) (t : Tale) : Tale := { t with pieces := ps ++ t.pieces }

def Tale.ofLine (cwd : Except IoError Path) (ctx : Context) (rest : List Bytes) (line : String) : Tale :=
  match (Command.ofLine line).perform cwd ctx with
  | .error e => ⟨.error e, ctx, rest, []⟩
  | .ok reply => ⟨.ok (reply.signal.getD .resume), reply.context, rest, reply.pieces⟩

/-- A session prompts for every line that it reads, and once more when there is none. -/
def Tale.ofLines (cwd : Except IoError Path) (ctx : Context) : List Bytes → Tale
  | [] => ⟨.ok .quit, ctx, [], [.prompt, .plain "\n"]⟩
  | line :: lines =>
    match Utf8.decode? line with
    | none => ⟨.error (.io .notUtf8), ctx, lines, [.prompt]⟩
    | some text =>
      match (Command.ofLine text).perform cwd ctx with
      | .error e => ⟨.error e, ctx, lines, [.prompt]⟩
      | .ok ⟨left, ps, some signal, _⟩ => ⟨.ok signal, left, lines, .prompt :: ps⟩
      | .ok ⟨left, ps, none, _⟩ => (Tale.ofLines cwd left lines).prepend (.prompt :: ps)

def Tale.andThen (cwd : Except IoError Path) (t : Tale) : Act → Tale
  | .converse => (Tale.ofLines cwd t.context t.rest).prepend t.pieces
  | .execute line => (Tale.ofLine cwd t.context t.rest line).prepend t.pieces

def tellAll (cwd : Except IoError Path) (ctx : Context) (lines : List Bytes) (acts : List Act) : Tale :=
  acts.foldl (Tale.andThen cwd) ⟨.ok .resume, ctx, lines, []⟩

/-- `close` is what `t` tells, on a screen that began as `screen`. -/
structure Told (screen : Screen) (close : Close) (t : Tale) : Prop where
  result : close.result = t.result
  context : close.context = t.context
  rest : close.rest = t.rest
  shown : screen.Adds close.screen (shownBy screen.color t.pieces)

variable {cwd : Except IoError Path} {ctx : Context} {lines : List Bytes} {screen after : Screen}
  {close : Close} {t : Tale} {ps : List Piece}

theorem Told.prepend (h : screen.Adds after (shownBy screen.color ps)) (ht : Told after close t) :
    Told screen close (t.prepend ps) where
  result := ht.result
  context := ht.context
  rest := ht.rest
  shown := by
    have hall := h.trans ht.shown
    rw [h.color] at hall
    rw [shownBy, Tale.prepend, List.flatMap_append]
    exact hall

theorem execute_told (cwd : Except IoError Path) (ctx : Context) (h : screen.sink.room = none)
    (line : String) (rest : List Bytes) :
    Told screen (execute cwd ctx line screen rest) (Tale.ofLine cwd ctx rest line) := by
  rw [execute, Tale.ofLine]
  cases hp : (Command.ofLine line).perform cwd ctx with
  | error e =>
    simp only [turn, hp]
    exact ⟨rfl, rfl, rfl, h, rfl, (List.append_nil _).symm⟩
  | ok reply =>
    obtain ⟨after, hturn, hadds⟩ := turn_adds h hp
    rw [hturn]
    exact ⟨rfl, rfl, rfl, hadds⟩

theorem converse_told (cwd : Except IoError Path) (ctx : Context) (h : screen.sink.room = none)
    (lines : List Bytes) : Told screen (converse cwd ctx screen lines) (Tale.ofLines cwd ctx lines) := by
  induction lines generalizing ctx screen with
  | nil =>
    obtain ⟨after, hshow, hadds⟩ := Screen.showAll_adds h [.prompt, .plain "\n"]
    rw [converse, hshow]
    exact ⟨rfl, rfl, rfl, hadds⟩
  | cons line lines ih =>
    obtain ⟨prompted, hshow, hone⟩ := Screen.show_adds h .prompt
    have hprompt : screen.Adds prompted (shownBy screen.color [.prompt]) := by simpa [shownBy] using hone
    rw [converse, hshow, Tale.ofLines]
    dsimp only
    cases Utf8.decode? line with
    | none => exact ⟨rfl, rfl, rfl, hprompt⟩
    | some text =>
      dsimp only
      cases hp : (Command.ofLine text).perform cwd ctx with
      | error e =>
        simp only [turn, hp]
        exact ⟨rfl, rfl, rfl, hprompt⟩
      | ok reply =>
        obtain ⟨after, hturn, hadds⟩ := turn_adds hprompt.room hp
        obtain ⟨left, ps, signal, events⟩ := reply
        have hanswer : screen.Adds after (shownBy screen.color (.prompt :: ps)) := by
          have hall := hprompt.trans hadds
          rw [hprompt.color] at hall
          simpa [shownBy] using hall
        rw [hturn]
        cases signal with
        | some signal => exact ⟨rfl, rfl, rfl, hanswer⟩
        | none => exact .prepend hanswer (ih left hanswer.room)

/-- An act does what its tale says, wherever the acts before it have led. -/
theorem Told.andThen (h : Told screen close t) (act : Act) :
    Told screen (close.andThen cwd act) (t.andThen cwd act) := by
  cases act with
  | converse =>
    rw [Close.andThen, Tale.andThen, h.context, h.rest]
    exact .prepend h.shown (converse_told cwd t.context h.shown.room t.rest)
  | execute line =>
    rw [Close.andThen, Tale.andThen, h.context, h.rest]
    exact .prepend h.shown (execute_told cwd t.context h.shown.room line t.rest)

theorem actAll_told (cwd : Except IoError Path) (ctx : Context) (lines : List Bytes)
    (h : screen.sink.room = none) (acts : List Act) :
    Told screen (actAll cwd ctx lines screen acts) (tellAll cwd ctx lines acts) := by
  have hstart : Told screen ⟨.ok .resume, ctx, screen, lines⟩ ⟨.ok .resume, ctx, lines, []⟩ :=
    ⟨rfl, rfl, rfl, h, rfl, (List.append_nil _).symm⟩
  rw [actAll, tellAll]
  generalize (⟨.ok .resume, ctx, screen, lines⟩ : Close) = close at hstart ⊢
  generalize (⟨.ok .resume, ctx, lines, []⟩ : Tale) = t at hstart ⊢
  induction acts generalizing close t with
  | nil => exact hstart
  | cons act acts ih => exact ih _ _ (hstart.andThen act)

end Tales

section Decoration

/-- Texts that cannot be taken for a prompt or a complaint. -/
def IsPlain (text : String) : Prop := text.toList.head? ≠ some '(' ∧ text.toList.head? ≠ some '*'

/-- The output of some pieces without colour and with it. A prompt stands between the sequences for bold
print and a complaint between those for red, its newline outside; nothing else differs. -/
inductive Decorated : List Piece → String → String → Prop
  | nil : Decorated [] "" ""
  | prompt {ps : List Piece} {plain colored : String} : Decorated ps plain colored →
      Decorated (.prompt :: ps) ("(stepline) " ++ plain)
        ("\x1b[1m" ++ "(stepline) " ++ "\x1b[0m" ++ colored)
  | complaint (text : String) {ps : List Piece} {plain colored : String} : Decorated ps plain colored →
      Decorated (.complaint text :: ps) ("*** " ++ text ++ "\n" ++ plain)
        ("\x1b[31m" ++ "*** " ++ text ++ "\x1b[39m" ++ "\n" ++ colored)
  | plain {text : String} {ps : List Piece} {plain colored : String} : IsPlain text →
      Decorated ps plain colored → Decorated (.plain text :: ps) (text ++ plain) (text ++ colored)

variable {cwd : Except IoError Path} {ctx : Context} {ps : List Piece} {text : String}

theorem head?_append {s : String} {c : Char} (h : s.toList.head? = some c) (t : String) :
    (s ++ t).toList.head? = some c := by
  rw [String.toList_append, List.head?_append, h, Option.some_or]

theorem isPlain_of_head {c : Char} (h : text.toList.head? = some c) (hc : c ≠ '(' ∧ c ≠ '*') :
    IsPlain text := by
  rw [IsPlain, h]
  simpa using hc

theorem isPlain_of_perform {command : Command} {reply : Reply} (h : command.perform cwd ctx = .ok reply)
    (hm : .plain text ∈ reply.pieces) : IsPlain text := by
  cases command with
  | nothing | resume | quit | unknown =>
    cases h
    simp at hm
  | restart script =>
    cases script with
    | none =>
      cases h
      simp at hm
    | some script =>
      rw [Command.perform] at h
      split at h
      · cases h
      · cases h
        simp at hm
  | set name value =>
    rw [Command.perform] at h
    split at h
    · cases h
      simp at hm
    next setting _ =>
      split at h
      · cases h
        simp at hm
      · cases h
        obtain rfl : text = _ := by simpa using hm
        cases setting with
        | postMortem =>
          have hhead : Setting.postMortem.name.toList.head? = some 'p' := rfl
          exact isPlain_of_head (head?_append (head?_append (head?_append hhead _) _) _) (by decide)
        | linetrace =>
          have hhead : Setting.linetrace.name.toList.head? = some 'l' := rfl
          exact isPlain_of_head (head?_append (head?_append (head?_append hhead _) _) _) (by decide)
  | info =>
    cases h
    obtain rfl : text = infoText ctx := by simpa using hm
    have hhead : "Script: ".toList.head? = some 'S' := rfl
    exact isPlain_of_head (head?_append (head?_append (head?_append (head?_append hhead _) _) _) _)
      (by decide)
  | help =>
    cases h
    obtain rfl : text = helpText := by simpa using hm
    have hhead : "Commands:\n".toList.head? = some 'C' := rfl
    refine isPlain_of_head (c := 'C') ?_ (by decide)
    unfold helpText
    iterate 6 refine head?_append ?_ _
    exact hhead

theorem isPlain_of_line {lines : List Bytes} {line : String}
    (hm : .plain text ∈ (Tale.ofLine cwd ctx lines line).pieces) : IsPlain text := by
  rw [Tale.ofLine] at hm
  split at hm
  · cases hm
  next reply hp => exact isPlain_of_perform hp hm

theorem isPlain_of_lines {lines : List Bytes} (hm : .plain text ∈ (Tale.ofLines cwd ctx lines).pieces) :
    IsPlain text := by
  fun_induction Tale.ofLines cwd ctx lines with
  | case1 =>
    obtain rfl : text = "\n" := by simpa using hm
    exact isPlain_of_head rfl (by decide)
  | case2 | case3 => simp at hm
  | case4 ctx line lines line' hl left ps signal events hp =>
    exact isPlain_of_perform hp (by simpa using hm)
  | case5 ctx line lines line' hl left ps events hp ih =>
    have hm' : .plain text ∈ ps ∨ .plain text ∈ (Tale.ofLines cwd left lines).pieces := by
      simpa [Tale.prepend] using hm
    obtain hm' | hm' := hm'
    · exact isPlain_of_perform hp hm'
    · exact ih hm'

theorem isPlain_of_tellAll {lines : List Bytes} {acts : List Act}
    (hm : .plain text ∈ (tellAll cwd ctx lines acts).pieces) : IsPlain text := by
  have hstart : ∀ text, .plain text ∈ (⟨.ok .resume, ctx, lines, []⟩ : Tale).pieces → IsPlain text := nofun
  rw [tellAll] at hm
  generalize (⟨.ok .resume, ctx, lines, []⟩ : Tale) = t at hstart hm
  induction acts generalizing t with
  | nil => exact hstart text hm
  | cons act acts ih =>
    refine ih (t.andThen cwd act) (fun text hm ↦ ?_) hm
    cases act with
    | converse => exact (List.mem_append.mp hm).elim (hstart text) isPlain_of_lines
    | execute line => exact (List.mem_append.mp hm).elim (hstart text) isPlain_of_line

theorem decorated_shownBy (h : ∀ text, .plain text ∈ ps → IsPlain text) :
    ∃ plain colored, Decorated ps plain colored ∧
      shownBy false ps = Utf8.encode plain ∧ shownBy true ps = Utf8.encode colored := by
  induction ps with
  | nil => exact ⟨"", "", .nil, rfl, rfl⟩
  | cons p ps ih =>
    obtain ⟨plain, colored, hd, hplain, hcolored⟩ := ih fun text hm ↦ h text (List.mem_cons_of_mem p hm)
    have hshown (color : Bool) : shownBy color (p :: ps) = Utf8.encode (p.text color) ++ shownBy color ps :=
      rfl
    simp only [hshown, hplain, hcolored, ← Utf8.encode_append]
    cases p with
    | prompt => exact ⟨_, _, .prompt hd, rfl, rfl⟩
    | complaint text =>
      have hred : (Piece.complaint text).text true ++ colored =
          "\x1b[31m" ++ "*** " ++ text ++ "\x1b[39m" ++ "\n" ++ colored := by
        simp only [Piece.text, red, if_true, String.append_assoc]
      exact ⟨_, _, .complaint text hd, rfl, congrArg Utf8.encode hred⟩
    | plain text => exact ⟨_, _, .plain (h text List.mem_cons_self) hd, rfl, rfl⟩

end Decoration

/-- Two consoles, one without colour and one with it, on screens that take everything, after the same acts
from one context on one input. Both have come to the same, and have shown the same pieces; the output of
the one with colour is that of the other with its prompts and complaints decorated. -/
theorem color_only_decorates (cwd : Except IoError Path) (ctx : Context) (lines : List Bytes)
    (acts : List Act) (screen screen' : Screen) (hroom : screen.sink.room = none)
    (hroom' : screen'.sink.room = none) (hcolor : screen.color = false) (hcolor' : screen'.color = true) :
    let close := actAll cwd ctx lines screen acts
    let close' := actAll cwd ctx lines screen' acts
    close'.result = close.result ∧ close'.context = close.context ∧ close'.rest = close.rest ∧
    ∃ plain colored, Decorated (tellAll cwd ctx lines acts).pieces plain colored ∧
      close.screen.sink.bytes = screen.sink.bytes ++ Utf8.encode plain ∧
      close'.screen.sink.bytes = screen'.sink.bytes ++ Utf8.encode colored := by
  intro close close'
  have h : Told screen close (tellAll cwd ctx lines acts) := actAll_told cwd ctx lines hroom acts
  have h' : Told screen' close' (tellAll cwd ctx lines acts) := actAll_told cwd ctx lines hroom' acts
  obtain ⟨plain, colored, hd, hplain, hcolored⟩ := decorated_shownBy fun _ ↦ isPlain_of_tellAll
  refine ⟨h'.result.trans h.result.symm, h'.context.trans h.context.symm, h'.rest.trans h.rest.symm,
    plain, colored, hd, ?_, ?_⟩
  · rw [h.shown.bytes, hcolor, hplain]
  · rw [h'.shown.bytes, hcolor', hcolored]

/-- A complaint that quotes a sequence for red print, a line that is no text, and a session behind it that
goes on from there. -/
theorem color_only_decorates_behind_garbage :
    let ctx : Context := { target := .ofText "/app" }
    let lines := [Utf8.encode "\x1b[31mred\n", [0xFF, 0x0A], Utf8.encode "set linetrace on\n"]
    let acts : List Act := [.converse, .execute "bogus", .converse]
    let screen : Screen := {}
    let screen' : Screen := { color := true }
    let close := actAll (.error .sinkFull) ctx lines screen acts
    let close' := actAll (.error .sinkFull) ctx lines screen' acts
    screen.sink.room = none ∧ screen'.sink.room = none ∧ screen.color = false ∧ screen'.color = true ∧
      close'.result = close.result ∧ close'.context = close.context ∧
      close.context.settings.linetrace = true ∧
      ∃ plain colored, Decorated (tellAll (.error .sinkFull) ctx lines acts).pieces plain colored ∧
        close'.screen.sink.bytes = Utf8.encode colored := by
  intro ctx lines acts screen screen' close close'
  obtain ⟨hresult, hcontext, -, plain, colored, hd, -, hbytes⟩ :=
    color_only_decorates (.error .sinkFull) ctx lines acts screen screen' rfl rfl rfl rfl
  exact ⟨rfl, rfl, rfl, rfl, hresult, hcontext, by decide +kernel, plain, colored, hd,
    hbytes⟩

end DebugSession.Console
