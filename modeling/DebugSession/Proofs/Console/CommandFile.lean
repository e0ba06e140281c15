import DebugSession.Proofs.Console.Prompted
import DebugSession.Proofs.InitScript.Commands
import DebugSession.Proofs.Text.Words

/-!
A text as a command file and the same text typed at the prompt. The file's commands are the typed lines
without the blanks around them, and the lines that a file leaves out are told by their answers: a blank line
has none, and one that begins with `#` is no command.
-/

namespace DebugSession.Console

section Lines

variable {line s t : String} {word : String} {rest : List String}

/-- Lines that a command file leaves out although a console complains about them. -/
def isComment (line : String) : Bool := Text.startsWith (Text.trim line) "#"

theorem ofLine_congr (h : Text.trim s = Text.trim t) : Command.ofLine s = Command.ofLine t := by
  rw [Command.ofLine, Command.ofLine, h, Text.words_congr h]

/-- The first words that commands have. -/
def names : List String :=
  ["c", "continue", "r", "restart", "q", "quit", "exit", "i", "info", "h", "help", "set"]

theorem ofWords_of_notMem (h : word ∉ names) (line : String) :
    Command.ofWords line (word :: rest) = .unknown line := by
  simp only [names, List.mem_cons, not_or] at h
  rcases rest with _ | ⟨x, _ | ⟨y, _ | ⟨z, ws⟩⟩⟩
  · simp [Command.ofWords, h]
  · simp [Command.ofWords, h]
  · simp [Command.ofWords, h]
  · rfl

theorem notMem_names (h : word.toList.head? = some '#') : word ∉ names := by
  have hplain : ∀ name ∈ names, name.toList.head? ≠ some '#' := by decide +kernel
  exact fun hm ↦ hplain word hm h

theorem ofLine_comment (h : isComment line) : Command.ofLine line = .unknown (Text.trim line) := by
  have hhead := InitScript.startsWith_mark_iff.mp h
  obtain ⟨word, rest, hwords, hword⟩ := Text.words_of_head hhead (by decide)
  rw [Text.words_trim] at hwords
  rw [Command.ofLine, hwords, ofWords_of_notMem (notMem_names hword)]

theorem ofLine_blank (h : Text.trim line = "") : Command.ofLine line = .nothing := by
  rw [Command.ofLine, ← Text.words_trim, h]
  rfl

/-- A line that is no command of a file is blank or a comment. -/
theorem blank_or_comment (h : InitScript.isCommand (Text.trim line) = false) :
    Text.trim line = "" ∨ isComment line := by
  rw [InitScript.isCommand, Bool.and_eq_false_iff] at h
  obtain h | h := h
  · exact .inl (by simpa using h)
  · exact .inr (by simpa [isComment] using h)

theorem isComment_eq_false (h : InitScript.isCommand (Text.trim line)) : isComment line = false := by
  rw [InitScript.isCommand, Bool.and_eq_true] at h
  simpa [isComment] using h.2

end Lines

section Shown

variable {s t u : Screen} {bs cs : Bytes}

def shownBy (color : Bool) (ps : List Piece) : Bytes :=
  ps.flatMap fun p ↦ Utf8.encode (p.text color)

/-- `t` is a screen that takes everything and has shown what `s` has and then `bs`. -/
structure Screen.Adds (s t : Screen) (bs : Bytes) : Prop where
  room : t.sink.room = none
  color : t.color = s.color
  bytes : t.sink.bytes = s.sink.bytes ++ bs

theorem Screen.Adds.trans (h : s.Adds t bs) (h' : t.Adds u cs) : s.Adds u (bs ++ cs) where
  room := h'.room
  color := h'.color.trans h.color
  bytes := by rw [h'.bytes, h.bytes, List.append_assoc]

theorem Screen.show_adds (h : s.sink.room = none) (p : Piece) :
    ∃ t, s.show p = (.ok (), t) ∧ s.Adds t (Utf8.encode (p.text s.color)) := by
  obtain ⟨⟨pieces, room⟩, color, notes⟩ := s
  obtain rfl : room = none := h
  exact ⟨⟨⟨Utf8.encode (p.text color) :: pieces, none⟩, color, notes⟩, rfl, rfl, rfl,
    Sink.bytes_cons _ pieces none⟩

theorem Screen.showAll_adds (h : s.sink.room = none) (ps : List Piece) :
    ∃ t, s.showAll ps = (.ok (), t) ∧ s.Adds t (shownBy s.color ps) := by
  induction ps generalizing s with
  | nil => exact ⟨s, rfl, h, rfl, (List.append_nil _).symm⟩
  | cons p ps ih =>
    obtain ⟨t, hshow, hadds⟩ := show_adds h p
    obtain ⟨u, hshows, hadds'⟩ := ih hadds.room
    rw [hadds.color] at hadds'
    exact ⟨u, by rw [showAll, hshow]; exact hshows, hadds.trans hadds'⟩

theorem turn_adds (h : s.sink.room = none) {cwd : Except IoError Path} {ctx : Context} {line : String}
    {reply : Reply} (hp : (Command.ofLine line).perform cwd ctx = .ok reply) :
    ∃ t, turn cwd ctx line s = ⟨.ok reply.signal, reply.context, t⟩ ∧
      s.Adds t (shownBy s.color reply.pieces) := by
  have hnoted : ({ s with notes := reply.events.reverse ++ s.notes } : Screen).sink.room = none := h
  obtain ⟨t, ht, hroom, hcolor, hbytes⟩ := Screen.showAll_adds hnoted reply.pieces
  exact ⟨t, by simp only [turn, hp, ht], hroom, hcolor, hbytes⟩

end Shown

section Runs

variable {cwd : Except IoError Path} {ctx : Context} {screen screen' after after' : Screen}
  {lines : List String} {shares : List (String × Bytes)} {line : String} {share : Bytes}
  {typed filed : Close}

/-- Carries out commands up to the first that quits or fails. -/
def carryOut (cwd : Except IoError Path) : List String → Context → Screen → Close
  | [], ctx, screen => ⟨.ok .resume, ctx, screen, []⟩
  | line :: lines, ctx, screen =>
    let close := execute cwd ctx line screen []
    match close.result with
    | .error _ => close
    | .ok .quit => close
    | .ok _ => carryOut cwd lines close.context close.screen

/-- What a console has to say about a comment. -/
def complaintAbout (line : String) : Piece :=
  .complaint ("Unknown command: \"" ++ Text.trim line ++ "\". Try \"help\"")

/-- Two runs of the same lines, typed at the prompt and from a file, with the octets that each line shows.
The run from the file shows them without the prompts, the last newline and the shares of comments. -/
structure Alike (lines : List String) (shares : List (String × Bytes)) (screen screen' : Screen)
    (typed filed : Close) : Prop where
  lines_eq : shares.map Prod.fst = lines
  comments : ∀ s ∈ shares, isComment s.1 → s.2 = shownBy screen.color [complaintAbout s.1]
  context : filed.context = typed.context
  typed_end : typed.result = .ok .quit ∧ typed.rest = []
  filed_end : filed.result = .ok .resume
  typed_bytes : screen.Adds typed.screen
    ((shares.flatMap fun s ↦ shownBy screen.color [.prompt] ++ s.2) ++
      shownBy screen.color [.prompt, .plain "\n"])
  filed_bytes : screen'.Adds filed.screen ((shares.filter (!isComment ·.1)).flatMap Prod.snd)

theorem Alike.cons (h : Alike lines shares after after' typed filed)
    (hs : screen.Adds after (shownBy screen.color [.prompt] ++ share))
    (hs' : screen'.Adds after' (if isComment line then [] else share))
    (hc : isComment line → share = shownBy screen.color [complaintAbout line]) :
    Alike (line :: lines) ((line, share) :: shares) screen screen' typed filed where
  lines_eq := congrArg (line :: ·) h.lines_eq
  comments := by
    intro s hm
    rcases List.mem_cons.mp hm with rfl | hm
    · exact hc
    · rw [← hs.color]
      exact h.comments s hm
  context := h.context
  typed_end := h.typed_end
  filed_end := h.filed_end
  typed_bytes := by
    have hall := hs.trans h.typed_bytes
    rw [hs.color, ← List.append_assoc] at hall
    exact hall
  filed_bytes := by
    have hall := hs'.trans h.filed_bytes
    rw [List.filter_cons]
    cases hm : isComment line with
    | true => simpa [hm] using hall
    | false => simpa [hm] using hall

theorem alike_nil (cwd : Except IoError Path) (ctx : Context) (h : screen.sink.room = none)
    (h' : screen'.sink.room = none) :
    Alike [] [] screen screen' (converse cwd ctx screen []) (carryOut cwd [] ctx screen') := by
  obtain ⟨after, hshow, hadds⟩ := Screen.showAll_adds h [.prompt, .plain "\n"]
  rw [converse, hshow]
  exact ⟨rfl, List.forall_mem_nil _, rfl, ⟨rfl, rfl⟩, rfl, hadds, h', rfl, (List.append_nil _).symm⟩

theorem converse_turn {reply : Reply} (hroom : screen.sink.room = none)
    (hp : (Command.ofLine line).perform cwd ctx = .ok reply) (hn : reply.signal = none) :
    ∃ after, screen.Adds after (shownBy screen.color [.prompt] ++ shownBy screen.color reply.pieces) ∧
      ∀ lines, converse cwd ctx screen (Utf8.encode line :: lines) =
        converse cwd reply.context after lines := by
  obtain ⟨prompted, hshow, hprompt⟩ := Screen.show_adds hroom .prompt
  obtain ⟨after, hturn, hadds⟩ := turn_adds hprompt.room hp
  rw [hprompt.color] at hadds
  refine ⟨after, ?_, fun lines ↦ ?_⟩
  · have hall := hprompt.trans hadds
    simpa [shownBy] using hall
  · rw [converse_prompted hshow, answered, Utf8.decode?_encode]
    simp only [hturn, hn, proceed]

theorem carryOut_turn {reply : Reply} (hroom : screen.sink.room = none)
    (hp : (Command.ofLine line).perform cwd ctx = .ok reply) (hn : reply.signal = none) :
    ∃ after, screen.Adds after (shownBy screen.color reply.pieces) ∧
      ∀ lines, carryOut cwd (line :: lines) ctx screen = carryOut cwd lines reply.context after := by
  obtain ⟨after, hturn, hadds⟩ := turn_adds hroom hp
  refine ⟨after, hadds, fun lines ↦ ?_⟩
  rw [carryOut, execute]
  simp only [hturn, hn]
  rfl

theorem pieces_comment {reply : Reply} (h : isComment line)
    (hp : (Command.ofLine line).perform cwd ctx = .ok reply) :
    reply.context = ctx ∧ reply.pieces = [complaintAbout line] := by
  rw [ofLine_comment h] at hp
  cases hp
  exact ⟨rfl, rfl⟩

/-- What a line of a file does, which may be left out: the same as the typed line, except that there is no
complaint about a comment. -/
theorem commandOf_turn {raw : List Char} {reply : Reply} (hroom : screen.sink.room = none)
    (hp : (Command.ofLine (.ofList raw)).perform cwd ctx = .ok reply) (hn : reply.signal = none) :
    ∃ after, screen.Adds after
        (if isComment (.ofList raw) then [] else shownBy screen.color reply.pieces) ∧
      ∀ lines, carryOut cwd (InitScript.commandOf raw ++ lines) ctx screen =
        carryOut cwd lines reply.context after := by
  rw [InitScript.commandOf]
  cases hc : InitScript.isCommand (Text.trim (.ofList raw)) with
  | true =>
    rw [← ofLine_congr (Text.trim_trim _)] at hp
    rw [isComment_eq_false hc]
    exact carryOut_turn hroom hp hn
  | false =>
    have hidle : reply.context = ctx ∧
        (if isComment (.ofList raw) then [] else shownBy screen.color reply.pieces) = [] := by
      obtain hblank | hcomment := blank_or_comment hc
      · rw [ofLine_blank hblank] at hp
        cases hp
        exact ⟨rfl, ite_self []⟩
      · exact ⟨(pieces_comment hcomment hp).1, if_pos hcomment⟩
    rw [hidle.1, hidle.2]
    exact ⟨screen, ⟨hroom, rfl, (List.append_nil _).symm⟩, fun lines ↦ rfl⟩

theorem isComment_congr {s t : String} (h : Text.trim s = Text.trim t) : isComment s = isComment t := by
  rw [isComment, isComment, h]

theorem ends_congr {s t : String} (h : Text.trim s = Text.trim t) : ends s = ends t := by
  rw [Bool.eq_iff_iff, ends_iff, ends_iff, ofLine_congr h]

theorem converse_alike (cwd : Except IoError Path) (ctx : Context) (raws : List (List Char))
    (h : ∀ raw ∈ raws, ends (.ofList raw) = false) (hroom : screen.sink.room = none)
    (hroom' : screen'.sink.room = none) (hcolor : screen'.color = screen.color) :
    ∃ shares, Alike (raws.map (.ofList ∘ Text.dropLineEnd)) shares screen screen'
      (converse cwd ctx screen (raws.map (Utf8.encode ∘ .ofList)))
      (carryOut cwd (raws.flatMap InitScript.commandOf) ctx screen') := by
  induction raws generalizing ctx screen screen' with
  | nil => exact ⟨[], alike_nil cwd ctx hroom hroom'⟩
  | cons raw raws ih =>
    have htrim := Text.trim_dropLineEnd raw
    obtain ⟨reply, hp, hn⟩ := perform_continues cwd ctx (h raw List.mem_cons_self)
    obtain ⟨after, hadds, htyped⟩ := converse_turn hroom hp hn
    obtain ⟨after', hadds', hfiled⟩ := commandOf_turn hroom' hp hn
    rw [hcolor, ← isComment_congr htrim] at hadds'
    obtain ⟨shares, halike⟩ := ih reply.context (fun raw hm ↦ h raw (List.mem_cons_of_mem _ hm))
      hadds.room hadds'.room (hadds'.color.trans (hcolor.trans hadds.color.symm))
    rw [List.map_cons, List.map_cons, Function.comp_apply, Function.comp_apply, htyped,
      List.flatMap_cons, hfiled]
    refine ⟨_, halike.cons hadds hadds' fun hm ↦ ?_⟩
    rw [isComment_congr htrim] at hm
    rw [(pieces_comment hm hp).2, complaintAbout, complaintAbout, htrim]

end Runs

/-- A text of which no line ends a command session, as a command file and typed, both onto screens that take
everything. The file's commands leave the context that the typed lines leave, and show what those show
except for the prompts, the last newline and a complaint about each comment. -/
theorem command_file_as_typed (cwd : Except IoError Path) (ctx : Context) (path : Path) (text : String)
    (h : ∀ line ∈ Text.lines text, ends line = false) (screen screen' : Screen)
    (hroom : screen.sink.room = none) (hroom' : screen'.sink.room = none)
    (hcolor : screen'.color = screen.color) :
    ∃ shares, Alike (Text.lines text) shares screen screen'
      (converse cwd ctx screen (inputLines (Utf8.encode text)))
      (carryOut cwd (InitScript.parse path text).commands ctx screen') := by
  rw [InitScript.parse_eq, inputLines, Utf8.cutAfter_encode]
  refine converse_alike cwd ctx _ (fun raw hm ↦ ?_) hroom hroom' hcolor
  rw [← ends_congr (Text.trim_dropLineEnd raw)]
  exact h _ (List.mem_map_of_mem hm)

/-- A comment, a blank line, a carriage return, blanks in front and no newline at the end. -/
theorem command_file_as_typed_comment :
    let ctx : Context := { target := .ofText "/app" }
    let path := Path.ofText ".rc"
    let text := "# trace it\n\tset  linetrace on\r\n\u2003\n bogus"
    let screen : Screen := { color := true }
    let typed := converse (.error .sinkFull) ctx screen (inputLines (Utf8.encode text))
    let filed := carryOut (.error .sinkFull) (InitScript.parse path text).commands ctx screen
    (∀ line ∈ Text.lines text, ends line = false) ∧ screen.sink.room = none ∧
      (∃ shares, Alike (Text.lines text) shares screen screen typed filed) ∧
      (InitScript.parse path text).commands = ["set  linetrace on", "bogus"] ∧
      filed.context.settings.linetrace = true := by
  intro ctx path text screen typed filed
  have hends : ∀ line ∈ Text.lines text, ends line = false := by decide +kernel
  exact ⟨hends, rfl, command_file_as_typed _ ctx path text hends screen screen rfl rfl rfl,
    by decide +kernel, by decide +kernel⟩

end DebugSession.Console
