import DebugSession.Console.Dialogue
import DebugSession.Proofs.Path.Absolute
import DebugSession.Proofs.Text.Lines

/-!
What a console makes of a text. Lines are judged by their words: some end a command session, some name
another script, some change a setting, and the context that a session leaves heeds the lines it read.
-/

namespace DebugSession.Console

section Words

/-- Lines that leave the debugger. -/
def quits (line : String) : Bool := Text.words line ∈ [["q"], ["quit"], ["exit"]]

/-- The script that a line names for the next run. -/
def switch? (line : String) : Option String :=
  match Text.words line with
  | [word, script] => if word = "r" ∨ word = "restart" then some script else none
  | _ => none

/-- Lines that run a script again. -/
def relaunches (line : String) : Bool :=
  Text.words line ∈ [["c"], ["continue"], ["r"], ["restart"]] ∨ (switch? line).isSome

/-- Lines that have a script start over. -/
def restarts (line : String) : Bool :=
  Text.words line ∈ [["r"], ["restart"]] ∨ (switch? line).isSome

/-- The value that a line gives to a setting. -/
def accepted? (setting : Setting) (line : String) : Option Bool :=
  match Text.words line with
  | [word, name, value] =>
    if word = "set" ∧ Setting.ofName? name = some setting then readSwitch? value else none
  | _ => none

variable {line : String}

theorem quits_iff : quits line ↔ Command.ofLine line = .quit := by
  rw [quits, Command.ofLine, decide_eq_true_eq]
  obtain _ | ⟨w, _ | ⟨x, _ | ⟨y, _ | ⟨z, ws⟩⟩⟩⟩ := Text.words line
  all_goals grind [Command.ofWords]

theorem switch?_eq : switch? line =
    match Command.ofLine line with
    | .restart script => script
    | _ => none := by
  rw [switch?, Command.ofLine]
  obtain _ | ⟨w, _ | ⟨x, _ | ⟨y, _ | ⟨z, ws⟩⟩⟩⟩ := Text.words line
  all_goals grind [Command.ofWords]

theorem relaunches_iff : relaunches line ↔
    Command.ofLine line = .resume ∨ ∃ script, Command.ofLine line = .restart script := by
  rw [relaunches, switch?_eq, Command.ofLine, decide_eq_true_eq]
  obtain _ | ⟨w, _ | ⟨x, _ | ⟨y, _ | ⟨z, ws⟩⟩⟩⟩ := Text.words line
  all_goals grind [Command.ofWords]

theorem not_relaunches_of_quits (h : quits line) : relaunches line = false := by
  rw [← Bool.not_eq_true, relaunches_iff, quits_iff.mp h]
  simp

theorem accepted?_eq (setting : Setting) : accepted? setting line =
    match Command.ofLine line with
    | .set name value => if Setting.ofName? name = some setting then readSwitch? value else none
    | _ => none := by
  rw [accepted?, Command.ofLine]
  obtain _ | ⟨w, _ | ⟨x, _ | ⟨y, _ | ⟨z, ws⟩⟩⟩⟩ := Text.words line
  all_goals grind [Command.ofWords]

theorem ne_empty_of_restart {script : String} (h : Command.ofLine line = .restart (some script)) :
    script ≠ "" := by
  have hmem : script ∈ Text.words line := by
    rw [Command.ofLine] at h
    generalize Text.words line = words at h ⊢
    obtain _ | ⟨w, _ | ⟨x, _ | ⟨y, _ | ⟨z, ws⟩⟩⟩⟩ := words
    all_goals grind [Command.ofWords]
  rw [Text.words, List.mem_map] at hmem
  obtain ⟨word, hword, rfl⟩ := hmem
  have hne : word ≠ [] := by simpa using (List.mem_filter.mp hword).2
  intro h
  exact hne (by simpa using congrArg String.toList h)

end Words

section Heeding

/-- The last value that `read?` finds in some lines. -/
def latest {β : Type} (read? : String → Option β) (lines : List String) : Option β :=
  (lines.filterMap read?).getLast?

theorem latest_append {β : Type} (read? : String → Option β) (lines more : List String) :
    latest read? (lines ++ more) = (latest read? more).or (latest read? lines) := by
  rw [latest, List.filterMap_append, List.getLast?_append]
  rfl

theorem latest_singleton {β : Type} (read? : String → Option β) (line : String) :
    latest read? [line] = read? line := by
  cases h : read? line <;> simp [latest, h]

/-- `after` is what `before` becomes when `lines` are heeded in the directory `cwd`: the script and each
setting are as the last line has it that names them. -/
structure Heeds (cwd : Path) (before : Context) (lines : List String) (after : Context) : Prop where
  args : after.scriptArgs = before.scriptArgs
  target : match latest switch? lines with
    | none => after.target = before.target
    | some script => Path.absolute (.ok cwd) (.ofText script) = .ok after.target
  settings : ∀ setting, after.settings.get setting =
    (latest (accepted? setting) lines).getD (before.settings.get setting)

variable {cwd : Path} {before middle after : Context} {lines more : List String} {line : String}

theorem Heeds.nil (cwd : Path) (ctx : Context) : Heeds cwd ctx [] ctx := ⟨rfl, rfl, fun _ ↦ rfl⟩

theorem Heeds.append (h : Heeds cwd before lines middle) (h' : Heeds cwd middle more after) :
    Heeds cwd before (lines ++ more) after where
  args := h'.args.trans h.args
  target := by
    have ht := h.target
    have ht' := h'.target
    rw [latest_append]
    cases hm : latest switch? more with
    | some script => simpa [hm] using ht'
    | none =>
      rw [hm] at ht'
      rw [Option.none_or, ht']
      exact ht
  settings setting := by
    rw [h'.settings, h.settings, latest_append]
    cases latest (accepted? setting) more <;> rfl

theorem get_set (s : Settings) (name setting : Setting) (value : Bool) :
    (s.set name value).get setting = if name = setting then value else s.get setting := by
  cases name <;> cases setting <;> rfl

theorem Heeds.of_line (hargs : after.scriptArgs = before.scriptArgs)
    (htarget : match switch? line with
      | none => after.target = before.target
      | some script => Path.absolute (.ok cwd) (.ofText script) = .ok after.target)
    (hsettings : ∀ setting, after.settings.get setting =
      (accepted? setting line).getD (before.settings.get setting)) :
    Heeds cwd before [line] after where
  args := hargs
  target := by
    rw [latest_singleton]
    exact htarget
  settings setting := by
    rw [latest_singleton]
    exact hsettings setting

theorem Heeds.unchanged (hs : switch? line = none) (ha : ∀ setting, accepted? setting line = none)
    (ctx : Context) : Heeds cwd ctx [line] ctx :=
  .of_line rfl (by rw [hs]) fun setting ↦ by rw [ha]; rfl

theorem absolute_readable (cwd : Path) {script : String} (h : script ≠ "") :
    ∃ path, Path.absolute (.ok cwd) (.ofText script) = .ok path := by
  have hne : Utf8.encode script ≠ [] := by
    intro he
    have hd := Utf8.decode?_encode script
    rw [he] at hd
    cases hd
    exact h rfl
  exact Path.absolute_defined (.ok cwd) hne fun _ ↦ ⟨cwd, rfl⟩

/-- What one line does: it ends the session with the signal that its words stand for, or it does not, and
its context heeds it. -/
theorem perform_ofLine (cwd : Path) (ctx : Context) (line : String) :
    ∃ reply, (Command.ofLine line).perform (.ok cwd) ctx = .ok reply ∧
      Heeds cwd ctx [line] reply.context ∧
      (reply.signal = some .quit ↔ quits line) ∧
      (reply.signal = none ↔ quits line = false ∧ relaunches line = false) := by
  rw [← Bool.not_eq_true, ← Bool.not_eq_true, quits_iff, relaunches_iff]
  have hswitch := @switch?_eq line
  have haccepted := @accepted?_eq line
  cases hc : Command.ofLine line with
  | nothing | resume | quit | info | help | unknown =>
    rw [hc] at hswitch haccepted
    exact ⟨_, rfl, .unchanged hswitch haccepted ctx, by simp, by simp⟩
  | restart script =>
    rw [hc] at hswitch haccepted
    cases script with
    | none => exact ⟨_, rfl, .unchanged hswitch haccepted ctx, by simp, by simp⟩
    | some script =>
      obtain ⟨path, hpath⟩ := absolute_readable cwd (ne_empty_of_restart hc)
      refine ⟨_, by rw [Command.perform, hpath], ?_, by simp, by simp⟩
      exact .of_line rfl (by rw [hswitch]; exact hpath) fun setting ↦ by rw [haccepted]; rfl
  | set name value =>
    rw [hc] at hswitch haccepted
    rw [Command.perform]
    cases hn : Setting.ofName? name with
    | none =>
      have hnone (setting : Setting) : accepted? setting line = none := by
        simp [haccepted, hn]
      exact ⟨_, rfl, .unchanged hswitch hnone ctx, by simp, by simp⟩
    | some named =>
      cases hv : readSwitch? value with
      | none =>
        have hnone (setting : Setting) : accepted? setting line = none := by
          simp [haccepted, hv]
        exact ⟨_, rfl, .unchanged hswitch hnone ctx, by simp, by simp⟩
      | some on =>
        refine ⟨_, rfl, .of_line rfl (by rw [hswitch]) fun setting ↦ ?_, by simp, by simp⟩
        rw [haccepted, get_set]
        by_cases hs : named = setting <;> simp [hn, hv, hs]

end Heeding

section Converse

variable {cwd : Path} {ctx : Context} {screen : Screen} {line : String}

theorem Screen.show_unlimited (h : screen.sink.room = none) (p : Piece) :
    ∃ after, screen.show p = (.ok (), after) ∧ after.sink.room = none := by
  obtain ⟨⟨pieces, room⟩, color, notes⟩ := screen
  obtain rfl : room = none := h
  exact ⟨⟨⟨Utf8.encode (p.text color) :: pieces, none⟩, color, notes⟩, rfl, rfl⟩

theorem Screen.showAll_unlimited (h : screen.sink.room = none) (ps : List Piece) :
    ∃ after, screen.showAll ps = (.ok (), after) ∧ after.sink.room = none := by
  induction ps generalizing screen with
  | nil => exact ⟨screen, rfl, h⟩
  | cons p ps ih =>
    obtain ⟨middle, hm, hroom⟩ := show_unlimited h p
    obtain ⟨after, ha, hroom⟩ := ih hroom
    exact ⟨after, by rw [Screen.showAll, hm]; exact ha, hroom⟩

theorem turn_unlimited (h : screen.sink.room = none) {cwd : Except IoError Path} {reply : Reply}
    (hp : (Command.ofLine line).perform cwd ctx = .ok reply) :
    ∃ after, turn cwd ctx line screen = ⟨.ok reply.signal, reply.context, after⟩ ∧
      after.sink.room = none := by
  have hnoted : ({ screen with notes := reply.events.reverse ++ screen.notes } : Screen).sink.room =
      none := h
  obtain ⟨after, ha, hroom⟩ := Screen.showAll_unlimited hnoted reply.pieces
  exact ⟨after, by simp only [turn, hp, ha], hroom⟩

def continues (line : String) : Prop := quits line = false ∧ relaunches line = false

/-- How a command session ends that read `heard` and left `rest`. -/
inductive Closes : (heard rest : List String) → Signal → Prop
  | exhausted {heard : List String} : (∀ line ∈ heard, continues line) → Closes heard [] .quit
  | quit {heard rest : List String} {line : String} :
      (∀ line ∈ heard, continues line) → quits line → Closes (heard ++ [line]) rest .quit
  | relaunch {heard rest : List String} {line : String} {signal : Signal} :
      (∀ line ∈ heard, continues line) → quits line = false → relaunches line → signal ≠ .quit →
      Closes (heard ++ [line]) rest signal

theorem Closes.cons {heard rest : List String} {signal : Signal} (h : Closes heard rest signal)
    (hl : continues line) : Closes (line :: heard) rest signal := by
  have hall (heard : List String) (h : ∀ l ∈ heard, continues l) :
      ∀ l ∈ line :: heard, continues l :=
    List.forall_mem_cons.mpr ⟨hl, h⟩
  cases h with
  | exhausted h => exact .exhausted (hall _ h)
  | quit h hq => exact .quit (hall _ h) hq
  | relaunch h hq hr hs => exact .relaunch (hall _ h) hq hr hs

theorem Closes.reads {heard rest : List String} {signal : Signal} (h : Closes heard rest signal)
    (hs : signal ≠ .quit) : 0 < heard.length := by
  cases h with
  | exhausted | quit => exact absurd rfl hs
  | relaunch => simp

/-- A command session reads lines as far as it goes, heeds them, and leaves the others. -/
theorem converse_closes (cwd : Path) (ctx : Context) (h : screen.sink.room = none)
    (lines : List String) :
    ∃ heard rest signal left after, lines = heard ++ rest ∧ Closes heard rest signal ∧
      Heeds cwd ctx heard left ∧ after.sink.room = none ∧
      converse (.ok cwd) ctx screen (lines.map Utf8.encode) =
        ⟨.ok signal, left, after, rest.map Utf8.encode⟩ := by
  induction lines generalizing ctx screen with
  | nil =>
    obtain ⟨after, ha, hroom⟩ := Screen.showAll_unlimited h [.prompt, .plain "\n"]
    exact ⟨[], [], .quit, ctx, after, rfl, .exhausted nofun, .nil cwd ctx, hroom,
      by rw [List.map_nil, converse, ha]⟩
  | cons line lines ih =>
    obtain ⟨shown, hshown, hroom⟩ := Screen.show_unlimited h .prompt
    obtain ⟨reply, hreply, hheeds, hquit, hnone⟩ := perform_ofLine cwd ctx line
    obtain ⟨screen', hturn, hroom⟩ := turn_unlimited hroom hreply
    rw [List.map_cons]
    simp only [converse, hshown, Utf8.decode?_encode, hturn]
    cases hs : reply.signal with
    | none =>
      obtain ⟨heard, rest, signal, left, after, rfl, hc, hh, hroom, he⟩ := ih reply.context hroom
      exact ⟨line :: heard, rest, signal, left, after, rfl, hc.cons (hnone.mp hs), hheeds.append hh,
        hroom, he⟩
    | some signal =>
      refine ⟨[] ++ [line], lines, signal, reply.context, screen', rfl, ?_, hheeds, hroom, rfl⟩
      by_cases hq : signal = .quit
      · subst hq
        exact .quit nofun (hquit.mp hs)
      · have hquits : quits line = false := by
          rw [← Bool.not_eq_true, ← hquit, hs]
          simpa using hq
        have hgoes : relaunches line := by
          rw [← Bool.not_eq_false]
          intro hr
          rw [hnone.mpr ⟨hquits, hr⟩] at hs
          cases hs
        exact .relaunch nofun hquits hgoes hq

end Converse

end DebugSession.Console
