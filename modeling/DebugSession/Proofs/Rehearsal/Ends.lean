import DebugSession.Proofs.Session.Induction
import DebugSession.Rehearsal.Stage

/-!
Every rehearsal ends. Each command session that does not quit uses up a signal or a line, so that a rank
of the state and of what the consoles have left decreases from one state to the next.
-/

namespace DebugSession

theorem Console.converse_shortens {cwd : Except IoError Path} {ctx : Context} {screen : Screen}
    {lines : List Bytes} {signal : Signal}
    (h : (converse cwd ctx screen lines).result = .ok signal) (hs : signal ≠ .quit) :
    (converse cwd ctx screen lines).rest.length < lines.length := by
  induction lines generalizing ctx screen with
  | nil =>
    rw [converse] at h
    split at h <;> cases h
    exact absurd rfl hs
  | cons line lines ih =>
    rw [converse] at h ⊢
    generalize screen.show .prompt = x at h ⊢
    obtain ⟨e | _, shown⟩ := x
    · cases h
    cases hd : Utf8.decode? line with
    | none =>
      simp only [hd] at h
      cases h
    | some text =>
      simp only [hd] at h ⊢
      generalize turn cwd ctx text shown = t at h ⊢
      obtain ⟨e | _ | signal, left, screen⟩ := t
      · cases h
      · exact Nat.lt_succ_of_lt (ih h)
      · exact Nat.lt_succ_self _

namespace Rehearsal

open Session

/-- How many more states a session can go through from one of them, with `sessions` command sessions to
come before it has to quit. -/
def rank : State → (sessions : Nat) → Nat
  | .modeSelect, sessions => 3 * sessions + 3
  | .localPrep _, sessions => 3 * sessions + 2
  | .validate _, sessions => 3 * sessions + 1
  | .launch _, sessions => 3 * sessions
  | .commandLoop _, sessions => 3 * sessions - 1
  | .remoteConnect _, _ => 2
  | .done _, _ => 1

theorem Stage.sessions_pos (s : Stage) : 0 < s.sessions := by
  rw [sessions]
  split <;> exact Nat.succ_pos _

/-- Only command sessions use up what the consoles have. -/
theorem cast_keeps_sessions (cwd : Except IoError Path) :
    (cast cwd).Upholds fun _ act ↦ ∀ s, (act s).2.sessions = s.sessions where
  pure _ _ := rfl
  throw _ _ := rfl
  bind {_ _ act f} h hf s := by
    have hs := h s
    rw [Act.bind_apply]
    generalize act s = x at hs
    obtain ⟨e | a, t⟩ := x
    · exact hs
    · exact (hf a t).trans hs
  start _ := rfl
  attempt _ _ _ := rfl
  validate script s := by
    obtain ⟨marks, room, outcomes, _ | ⟨v, checks⟩, consoles, refuse, targets, log⟩ := s <;> rfl
  executeCommand ctx line s := by
    obtain ⟨marks, room, outcomes, checks, _ | _, refuse, targets, log⟩ := s <;> rfl
  connect _ _ := rfl
  record _ _ := rfl
  say _ _ := rfl
  settle _ := rfl

theorem processCommands_uses {cwd : Except IoError Path} {ctx left : Context} {signal : Signal}
    {s t : Stage} (h : (cast cwd).processCommands ctx s = (.ok (signal, left), t))
    (hs : signal ≠ .quit) : t.sessions < s.sessions := by
  obtain ⟨marks, room, outcomes, checks, consoles, refuse, targets, log⟩ := s
  cases consoles with
  | scripted signals =>
    cases signals with
    | nil =>
      cases h
      exact absurd rfl hs
    | cons first signals =>
      cases h
      exact Nat.lt_succ_self _
  | real lines color =>
    have hr : (Console.converse cwd ctx { sink := { room }, color } lines).result.map
        (fun signal ↦ (signal, _)) = .ok (signal, left) := congrArg Prod.fst h
    obtain rfl := congrArg Prod.snd h
    have hresult : (Console.converse cwd ctx { sink := { room }, color } lines).result =
        .ok signal := by
      generalize (Console.converse cwd ctx { sink := { room }, color } lines).result = r at hr ⊢
      cases r with
      | error e => cases hr
      | ok first =>
        cases hr
        rfl
    exact Nat.succ_lt_succ (Console.converse_shortens hresult hs)

theorem shown_eq_ok {α : Type} {a b : α} {answer : Except IoError Unit} (h : shown a answer = .ok b) :
    b = a := by
  cases answer <;> cases h
  rfl

/-- Outside command sessions the rank of the state decreases whatever is left of those. -/
theorem rank_lt_of_advances {env : Environment} {opts : Options} {state next : State} {sessions : Nat}
    {calls : List Call} {r : Except Fault State} (h : Advances env opts state calls r)
    (hr : r = .ok next) (hd : ∀ t, state ≠ .done t) (hc : ∀ ctx, state ≠ .commandLoop ctx)
    (hpos : 0 < sessions) : rank next sessions < rank state sessions := by
  cases h with
  | version answer | help answer | noTarget answer | failed _ _ _ answer | timedOut _ _ answer =>
    obtain rfl := shown_eq_ok hr
    simp only [rank]
    omega
  | endpoint | target | passed =>
    cases hr
    simp only [rank]
    omega
  | badEndpoint | unannounced | unsettled | unlocated | unstarted | unchecked => cases hr
  | connected endpoint answer =>
    cases answer <;> cases hr
    simp only [rank]
    omega
  | @prepared _ _ _ r =>
    obtain e | ⟨_ | _, left⟩ := r <;> cases hr <;> simp only [rank, entry] <;> omega
  | @ran _ _ _ r =>
    cases r <;> cases hr
    simp only [rank]
    omega
  | unprocessed | ended | again => exact absurd rfl (hc _)
  | done t => exact absurd rfl (hd t)

theorem advance_rank {cwd : Except IoError Path} (env : Environment) (opts : Options)
    {state next : State} {s t : Stage} (hd : ∀ t, state ≠ .done t)
    (h : advance (cast cwd) env opts state s = (.ok next, t)) :
    rank next t.sessions < rank state s.sessions := by
  by_cases hc : ∃ ctx, state = .commandLoop ctx
  · obtain ⟨ctx, rfl⟩ := hc
    have hpos := s.sessions_pos
    rw [advance, commandLoop, Act.bind_apply] at h
    cases hp : (cast cwd).processCommands ctx s with
    | mk r u =>
      rw [hp] at h
      cases r with
      | error e => cases h
      | ok answer =>
        obtain ⟨signal, left⟩ := answer
        dsimp only at h
        rw [Act.bind_apply, record_apply] at h
        dsimp only at h
        by_cases hq : (decide (signal = .quit) || opts.quit) = true
        · rw [if_pos hq] at h
          cases h
          simp only [rank]
          omega
        · rw [if_neg hq] at h
          cases h
          have hne : signal ≠ .quit := fun he ↦ hq (by simp [he])
          have hless := processCommands_uses hp hne
          have hsame : ((cast cwd).note (.commandsEnded signal) u).2.sessions = u.sessions := rfl
          rw [hsame]
          simp only [rank]
          omega
  · have hc : ∀ ctx, state ≠ .commandLoop ctx := fun ctx he ↦ hc ⟨ctx, he⟩
    have hkeep := advance_upholds (cast_keeps_sessions cwd) env opts hc s
    obtain ⟨calls, -, ha⟩ := advance_emits (cast cwd) env opts state s []
    rw [h] at hkeep ha
    rw [hkeep]
    exact rank_lt_of_advances ha rfl hd hc s.sessions_pos

theorem runFrom_ends {cwd : Except IoError Path} (env : Environment) (opts : Options) {steps : Nat}
    {state : State} {s : Stage} (h : rank state s.sessions ≤ steps) :
    (runFrom (cast cwd) env opts steps state s).1 ≠ .ok none := by
  induction steps generalizing state s with
  | zero =>
    have hpos := s.sessions_pos
    cases state <;> simp only [rank] at h <;> omega
  | succ steps ih =>
    by_cases hd : ∃ t, state = .done t
    · obtain ⟨t, rfl⟩ := hd
      exact nofun
    · have hn : ∀ t, state ≠ .done t := fun t ht ↦ hd ⟨t, ht⟩
      rw [runFrom_step (cast cwd) env opts hn]
      have hkeep : ((cast cwd).note (.entered state.name) s).2.sessions = s.sessions := rfl
      rw [← hkeep] at h
      generalize ((cast cwd).note (.entered state.name) s).2 = s at h ⊢
      cases ha : advance (cast cwd) env opts state s with
      | mk r t =>
        cases r with
        | error e => exact nofun
        | ok next =>
          have hless := advance_rank env opts hn ha
          exact ih (by omega)

theorem rehearse_ends (env : Environment) (opts : Options) (s : Stage) :
    (rehearse env opts s).1 ≠ .ok none :=
  runFrom_ends env opts (by rw [rank, stepsFor]; omega)

end Rehearsal
end DebugSession
