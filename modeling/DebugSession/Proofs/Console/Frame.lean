import DebugSession.Proofs.Console.Dialogue

/-!
What one command line can change, and what its outcome hangs on. Its words alone decide about the context
and the signal; the screen only decides whether the answer can be shown.
-/

namespace DebugSession.Console

section Words

variable {line line' : String}

/-- What a line signals when it can be answered. -/
def signalOf (line : String) : Signal :=
  if quits line then .quit else if restarts line then .restart else .resume

theorem switch?_eq_some_iff {script : String} : switch? line = some script ↔
    Text.words line = ["r", script] ∨ Text.words line = ["restart", script] := by
  rw [switch?]
  obtain _ | ⟨w, _ | ⟨x, _ | ⟨y, ws⟩⟩⟩ := Text.words line
  all_goals grind

theorem accepted?_eq_some_iff {setting : Setting} {on : Bool} : accepted? setting line = some on ↔
    ∃ name value, Text.words line = ["set", name, value] ∧ Setting.ofName? name = some setting ∧
      readSwitch? value = some on := by
  rw [accepted?]
  obtain _ | ⟨w, _ | ⟨x, _ | ⟨y, _ | ⟨z, ws⟩⟩⟩⟩ := Text.words line
  all_goals grind

theorem restarts_iff : restarts line ↔ ∃ script, Command.ofLine line = .restart script := by
  rw [restarts, switch?_eq, Command.ofLine, decide_eq_true_eq]
  obtain _ | ⟨w, _ | ⟨x, _ | ⟨y, _ | ⟨z, ws⟩⟩⟩⟩ := Text.words line
  all_goals grind [Command.ofWords]

theorem not_restarts_of_quits (h : quits line) : restarts line = false := by
  rw [← Bool.not_eq_true, restarts_iff, quits_iff.mp h]
  simp

theorem switch?_congr (h : Text.words line = Text.words line') : switch? line = switch? line' := by
  unfold switch?
  rw [h]

theorem accepted?_congr (h : Text.words line = Text.words line') (setting : Setting) :
    accepted? setting line = accepted? setting line' := by
  unfold accepted?
  rw [h]

theorem signalOf_eq_quit_iff : signalOf line = .quit ↔
    Text.words line ∈ [["q"], ["quit"], ["exit"]] := by
  rw [signalOf]
  cases hq : quits line with
  | true => simpa [quits] using hq
  | false =>
    have hn : Text.words line ∉ [["q"], ["quit"], ["exit"]] := by simpa [quits] using hq
    cases restarts line <;> simp [hn]

theorem signalOf_eq_restart_iff : signalOf line = .restart ↔
    Text.words line ∈ [["r"], ["restart"]] ∨
      ∃ script, Text.words line = ["r", script] ∨ Text.words line = ["restart", script] := by
  have hrestarts : restarts line ↔ Text.words line ∈ [["r"], ["restart"]] ∨
      ∃ script, Text.words line = ["r", script] ∨ Text.words line = ["restart", script] := by
    simp only [restarts, decide_eq_true_eq, Option.isSome_iff_exists, switch?_eq_some_iff]
  rw [← hrestarts, signalOf]
  cases hq : quits line with
  | true => simp [not_restarts_of_quits hq]
  | false => cases restarts line <;> simp

theorem signalOf_congr (h : Text.words line = Text.words line') :
    signalOf line = signalOf line' := by
  rw [signalOf, signalOf, quits, quits, restarts, restarts, switch?_congr h, h]

theorem signal_of_perform {cwd : Except IoError Path} {ctx : Context} {reply : Reply}
    (h : (Command.ofLine line).perform cwd ctx = .ok reply) :
    reply.signal.getD .resume = signalOf line := by
  have hquits := @quits_iff line
  have hrestarts := @restarts_iff line
  cases hc : Command.ofLine line with
  | nothing | resume | quit | info | help | unknown =>
    rw [hc] at h hquits hrestarts
    cases h
    simp [signalOf, hquits, hrestarts]
  | restart script =>
    rw [hc] at h hquits hrestarts
    have hsignal : reply.signal = some .restart := by
      cases script with
      | none =>
        cases h
        rfl
      | some script =>
        rw [Command.perform] at h
        split at h
        · cases h
        · cases h
          rfl
    simp [signalOf, hquits, hrestarts, hsignal]
  | set name value =>
    rw [hc] at h hquits hrestarts
    have hsignal : reply.signal = none := by
      rw [Command.perform] at h
      split at h
      · cases h
        rfl
      · split at h
        · cases h
          rfl
        · cases h
          rfl
    simp [signalOf, hquits, hrestarts, hsignal]

end Words

section Shown

variable {screen : Screen}

theorem show_cases (screen : Screen) (p : Piece) :
    (∃ after, screen.show p = (.ok (), after) ∧
      (after.sink.room = none ↔ screen.sink.room = none)) ∨
    ∃ after, screen.show p = (.error (.io .sinkFull), after) ∧ screen.sink.room ≠ none := by
  obtain ⟨⟨pieces, room⟩, color, notes⟩ := screen
  rw [Screen.show, Sink.writeText, Sink.write]
  cases room with
  | none => exact .inl ⟨_, rfl, .rfl⟩
  | some n =>
    dsimp only
    split
    · exact .inl ⟨_, rfl, by simp⟩
    · exact .inr ⟨_, rfl, by simp⟩

theorem showAll_cases (screen : Screen) (ps : List Piece) :
    (∃ after, screen.showAll ps = (.ok (), after)) ∨
    ∃ after, screen.showAll ps = (.error (.io .sinkFull), after) ∧ screen.sink.room ≠ none := by
  induction ps generalizing screen with
  | nil => exact .inl ⟨screen, rfl⟩
  | cons p ps ih =>
    rw [Screen.showAll]
    obtain ⟨after, hshow, hroom⟩ | ⟨after, hshow, hroom⟩ := show_cases screen p
    · rw [hshow, ne_eq, ← hroom]
      exact ih after
    · rw [hshow]
      exact .inr ⟨after, rfl, hroom⟩

/-- A command that can be carried out leaves its context even if its answer cannot be shown. -/
theorem execute_cases {cwd : Except IoError Path} {ctx : Context} {line : String} {reply : Reply}
    (h : (Command.ofLine line).perform cwd ctx = .ok reply) (screen : Screen) (rest : List Bytes) :
    (execute cwd ctx line screen rest).context = reply.context ∧
    ((execute cwd ctx line screen rest).result = .ok (signalOf line) ∨
      (execute cwd ctx line screen rest).result = .error (.io .sinkFull) ∧ screen.sink.room ≠ none) := by
  rw [← signal_of_perform h]
  have hnoted := showAll_cases { screen with notes := reply.events.reverse ++ screen.notes } reply.pieces
  simp only [execute, turn, h]
  obtain ⟨after, hshow⟩ | ⟨after, hshow, hroom⟩ := hnoted
  · rw [hshow]
    exact ⟨rfl, .inl rfl⟩
  · rw [hshow]
    exact ⟨rfl, .inr ⟨rfl, hroom⟩⟩

end Shown

section Framed

def Switches (words : List String) (script : String) : Prop :=
  words = ["r", script] ∨ words = ["restart", script]

def Sets (words : List String) (setting : Setting) (on : Bool) : Prop :=
  ∃ name value, words = ["set", name, value] ∧ Setting.ofName? name = some setting ∧
    readSwitch? value = some on

/-- What a line made of `words` does to a context in the directory `cwd`: nothing, unless it names another
script or gives a value to a setting. -/
structure Framed (cwd : Path) (words : List String) (before after : Context) : Prop where
  args : after.scriptArgs = before.scriptArgs
  target : after.target ≠ before.target → ∃ script, Switches words script
  switched : ∀ script, Switches words script →
    Path.absolute (.ok cwd) (.ofText script) = .ok after.target
  settings : ∀ setting, after.settings.get setting ≠ before.settings.get setting →
    ∃ on, Sets words setting on
  set : ∀ setting on, Sets words setting on → after.settings.get setting = on
  atMostOne : ∀ setting setting', after.settings.get setting ≠ before.settings.get setting →
    after.settings.get setting' ≠ before.settings.get setting' → setting = setting'
  unchanged : (∀ script, ¬ Switches words script) → (∀ setting on, ¬ Sets words setting on) →
    after = before

variable {cwd : Path} {before after after' : Context} {line line' : String}

theorem Sets.setting_unique {words : List String} {setting setting' : Setting} {on on' : Bool}
    (h : Sets words setting on) (h' : Sets words setting' on') : setting = setting' := by
  obtain ⟨name, value, rfl, hn, -⟩ := h
  obtain ⟨name', value', hw, hn', -⟩ := h'
  cases hw
  exact Option.some.inj (hn.symm.trans hn')

theorem context_ext (hargs : after.scriptArgs = before.scriptArgs)
    (htarget : after.target = before.target)
    (hsettings : ∀ setting, after.settings.get setting = before.settings.get setting) :
    after = before := by
  obtain ⟨target, ⟨postMortem, linetrace⟩, args⟩ := after
  obtain ⟨target', ⟨postMortem', linetrace'⟩, args'⟩ := before
  have hpostMortem : postMortem = postMortem' := hsettings .postMortem
  have hlinetrace : linetrace = linetrace' := hsettings .linetrace
  dsimp only at hargs htarget
  rw [hargs, htarget, hpostMortem, hlinetrace]

theorem Heeds.target_cases (h : Heeds cwd before [line] after) :
    switch? line = none ∧ after.target = before.target ∨
    ∃ script, switch? line = some script ∧
      Path.absolute (.ok cwd) (.ofText script) = .ok after.target := by
  have htarget := h.target
  rw [latest_singleton] at htarget
  cases hs : switch? line with
  | none =>
    rw [hs] at htarget
    exact .inl ⟨rfl, htarget⟩
  | some script =>
    rw [hs] at htarget
    exact .inr ⟨script, rfl, htarget⟩

theorem Heeds.setting_cases (h : Heeds cwd before [line] after) (setting : Setting) :
    accepted? setting line = none ∧
      after.settings.get setting = before.settings.get setting ∨
    accepted? setting line = some (after.settings.get setting) := by
  have hsetting := h.settings setting
  rw [latest_singleton] at hsetting
  cases ha : accepted? setting line with
  | none =>
    rw [ha] at hsetting
    exact .inl ⟨rfl, hsetting⟩
  | some on =>
    rw [ha] at hsetting
    exact .inr (congrArg some hsetting.symm)

theorem Heeds.framed (h : Heeds cwd before [line] after) :
    Framed cwd (Text.words line) before after := by
  have hsets : ∀ setting, after.settings.get setting ≠ before.settings.get setting →
      Sets (Text.words line) setting (after.settings.get setting) := by
    intro setting hd
    obtain ⟨-, hkept⟩ | hset := h.setting_cases setting
    · exact absurd hkept hd
    · exact accepted?_eq_some_iff.mp hset
  refine ⟨h.args, ?_, ?_, fun setting hd ↦ ⟨_, hsets setting hd⟩, ?_, ?_, ?_⟩
  · intro hd
    obtain ⟨-, hkept⟩ | ⟨script, hs, -⟩ := h.target_cases
    · exact absurd hkept hd
    · exact ⟨script, switch?_eq_some_iff.mp hs⟩
  · intro script hs
    have hs := switch?_eq_some_iff.mpr hs
    obtain ⟨hnone, -⟩ | ⟨named, hnamed, hpath⟩ := h.target_cases
    · cases hnone.symm.trans hs
    · cases hnamed.symm.trans hs
      exact hpath
  · intro setting on hs
    have hs := accepted?_eq_some_iff.mpr hs
    obtain ⟨hnone, -⟩ | hset := h.setting_cases setting
    · cases hnone.symm.trans hs
    · exact Option.some.inj (hset.symm.trans hs)
  · intro setting setting' hd hd'
    exact (hsets setting hd).setting_unique (hsets setting' hd')
  · intro hn hn'
    refine context_ext h.args ?_ fun setting ↦ ?_
    · obtain ⟨-, hkept⟩ | ⟨script, hs, -⟩ := h.target_cases
      · exact hkept
      · exact absurd (switch?_eq_some_iff.mp hs) (hn script)
    · obtain ⟨-, hkept⟩ | hset := h.setting_cases setting
      · exact hkept
      · exact absurd (accepted?_eq_some_iff.mp hset) (hn' setting _)

theorem Heeds.unique (h : Heeds cwd before [line] after) (h' : Heeds cwd before [line'] after')
    (hwords : Text.words line' = Text.words line) : after' = after := by
  refine context_ext (h'.args.trans h.args.symm) ?_ fun setting ↦ ?_
  · obtain ⟨hs, htarget⟩ | ⟨script, hs, htarget⟩ := h.target_cases
    · obtain ⟨-, htarget'⟩ | ⟨script', hs', -⟩ := h'.target_cases
      · exact htarget'.trans htarget.symm
      · cases hs.symm.trans ((switch?_congr hwords).symm.trans hs')
    · obtain ⟨hs', -⟩ | ⟨script', hs', htarget'⟩ := h'.target_cases
      · cases hs.symm.trans ((switch?_congr hwords).symm.trans hs')
      · cases hs.symm.trans ((switch?_congr hwords).symm.trans hs')
        exact Except.ok.inj (htarget'.symm.trans htarget)
  · rw [h'.settings, h.settings, latest_singleton, latest_singleton, accepted?_congr hwords]

end Framed

/-- One command line, on any screen. Its words decide what becomes of the context and, if the answer can be
shown, what it signals; only the sink can fail. -/
theorem execute_framed (cwd : Path) (ctx : Context) (line : String) (screen : Screen)
    (rest : List Bytes) :
    let close := execute (.ok cwd) ctx line screen rest
    Framed cwd (Text.words line) ctx close.context ∧
    (∀ signal, close.result = .ok signal →
      (signal = .quit ↔ Text.words line ∈ [["q"], ["quit"], ["exit"]]) ∧
      (signal = .restart ↔ Text.words line ∈ [["r"], ["restart"]] ∨
        ∃ script, Switches (Text.words line) script)) ∧
    (∀ e, close.result = .error e → e = .io .sinkFull ∧ screen.sink.room ≠ none) ∧
    ∀ line' screen' rest', Text.words line' = Text.words line →
      let close' := execute (.ok cwd) ctx line' screen' rest'
      close'.context = close.context ∧
        ∀ signal signal', close.result = .ok signal → close'.result = .ok signal' →
          signal' = signal := by
  intro close
  obtain ⟨reply, hreply, hheeds, -, -⟩ := perform_ofLine cwd ctx line
  obtain ⟨hcontext, hresult⟩ := execute_cases hreply screen rest
  have hsignal : ∀ signal, close.result = .ok signal → signal = signalOf line := by
    intro signal hs
    obtain hok | ⟨herror, -⟩ := hresult
    · exact Except.ok.inj (hs.symm.trans hok)
    · cases hs.symm.trans herror
  refine ⟨?_, ?_, ?_, ?_⟩
  · rw [show close.context = reply.context from hcontext]
    exact hheeds.framed
  · intro signal hs
    rw [hsignal signal hs]
    exact ⟨signalOf_eq_quit_iff, signalOf_eq_restart_iff⟩
  · intro e he
    obtain hok | ⟨herror, hroom⟩ := hresult
    · cases he.symm.trans hok
    · exact ⟨Except.error.inj (he.symm.trans herror), hroom⟩
  · intro line' screen' rest' hwords close'
    obtain ⟨reply', hreply', hheeds', -, -⟩ := perform_ofLine cwd ctx line'
    obtain ⟨hcontext', hresult'⟩ := execute_cases hreply' screen' rest'
    refine ⟨?_, ?_⟩
    · rw [show close'.context = reply'.context from hcontext',
        show close.context = reply.context from hcontext]
      exact hheeds.unique hheeds' hwords
    · intro signal signal' hs hs'
      obtain hok | ⟨herror, -⟩ := hresult'
      · rw [hsignal signal hs, ← signalOf_congr hwords]
        exact Except.ok.inj (hs'.symm.trans hok)
      · cases hs'.symm.trans herror

end DebugSession.Console
