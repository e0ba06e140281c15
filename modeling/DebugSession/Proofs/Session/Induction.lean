import DebugSession.Proofs.Session.Course

/-!
Induction over what a session does. A relation between the acts of two sets of services that passes on from
acts to those put together of them is one between whole sessions: a property of the acts of one session is
such a relation, and so is that two sessions go `Together`. `Answers` is for properties of single calls.
-/

namespace DebugSession

variable {σ τ : Type}

/-- The acts of the services are related by `P`, those of the consoles' command sessions perhaps not, and `P`
passes on to acts that are put together of them. A run of the engine counts with the report about it. -/
structure Services.Match (svc : Services σ) (svc' : Services τ)
    (P : (α : Type) → Act σ α → Act τ α → Prop) : Prop where
  pure : ∀ {α} (a : α), P α (pure a) (pure a)
  throw : ∀ {α} (e : Fault), P α (throw e) (throw e)
  bind : ∀ {α β} {act : Act σ α} {act' : Act τ α} {f : α → Act σ β} {f' : α → Act τ β},
    P α act act' → (∀ a, P β (f a) (f' a)) → P β (act >>= f) (act' >>= f')
  start : P Unit svc.start svc'.start
  runOnce : ∀ opts ctx, P _ (Session.runOnce svc opts ctx) (Session.runOnce svc' opts ctx)
  validate : ∀ script, P Verdict (svc.validate script) (svc'.validate script)
  executeCommand : ∀ ctx line, P _ (svc.executeCommand ctx line) (svc'.executeCommand ctx line)
  connect : ∀ endpoint, P Unit (svc.connect endpoint) (svc'.connect endpoint)
  record : ∀ e, P Unit (svc.record e) (svc'.record e)
  say : ∀ text, P Unit (svc.say text) (svc'.say text)
  settle : P Unit svc.settle svc'.settle

namespace Session

section Matched

variable {svc : Services σ} {svc' : Services τ} {P : (α : Type) → Act σ α → Act τ α → Prop}
  (h : svc.Match svc' P) (env : Environment) (opts : Options)

include h

theorem announce_matches (n : Notice) (state : State) :
    P _ (announce svc n >>= fun _ ↦ pure state) (announce svc' n >>= fun _ ↦ pure state) :=
  h.bind (h.say n.text) fun _ ↦ h.pure state

theorem selectMode_matches : P _ (selectMode svc env opts) (selectMode svc' env opts) := by
  unfold selectMode
  split
  · exact announce_matches h _ _
  split
  · exact announce_matches h _ _
  split
  · exact h.throw _
  · exact h.pure _
  split
  · exact h.pure _
  · exact announce_matches h _ _

theorem connectRemote_matches (endpoint : Endpoint) :
    P _ (connectRemote svc endpoint) (connectRemote svc' endpoint) :=
  h.bind (h.say _) fun _ ↦ h.bind h.settle fun _ ↦ h.bind (h.connect endpoint) fun _ ↦ h.pure _

theorem runCommands_matches (lines : List String) (ctx : Context) :
    P _ (runCommands svc lines ctx) (runCommands svc' lines ctx) := by
  induction lines generalizing ctx with
  | nil => exact h.pure _
  | cons line lines ih =>
    unfold runCommands
    refine h.bind (h.executeCommand ctx line) fun close ↦ ?_
    dsimp only
    split
    · exact h.pure _
    · exact ih close.2

theorem runScripts_matches (paths : List Path) (ctx : Context) :
    P _ (runScripts svc env paths ctx) (runScripts svc' env paths ctx) := by
  induction paths generalizing ctx with
  | nil => exact h.pure _
  | cons path paths ih =>
    unfold runScripts
    split
    · exact ih ctx
    · exact h.bind (h.record _) fun _ ↦ h.bind (h.say _) fun _ ↦ ih ctx
    · refine h.bind (h.record _) fun _ ↦ h.bind (runCommands_matches h _ ctx) fun left ↦ ?_
      dsimp only
      split
      · exact h.pure _
      · exact ih left.2

theorem prepare_matches (target : String) :
    P _ (prepare svc env opts target) (prepare svc' env opts target) := by
  have hlocate : P Path (ExceptT.mk (pure (locate env target)))
      (ExceptT.mk (pure (locate env target))) := by
    cases locate env target with
    | ok script => exact h.pure script
    | error e => exact h.throw e
  unfold prepare
  refine h.bind hlocate fun script ↦ h.bind (h.record _) fun _ ↦ h.bind h.start fun _ ↦ ?_
  dsimp only
  split
  · refine h.bind (runScripts_matches h env env.rcPaths _) fun left ↦ ?_
    split <;> exact h.pure _
  · exact h.pure _

theorem validate_matches (ctx : Context) : P _ (validate svc ctx) (validate svc' ctx) := by
  unfold validate
  refine h.bind (h.validate ctx.target) fun verdict ↦ ?_
  cases verdict with
  | passed => exact h.pure _
  | failed status output => exact h.bind (h.record _) fun _ ↦ announce_matches h _ _
  | timedOut after => exact announce_matches h _ _

theorem advance_matches {state : State} (hs : ∀ ctx, state ≠ .commandLoop ctx) :
    P _ (advance svc env opts state) (advance svc' env opts state) := by
  cases state with
  | modeSelect => exact selectMode_matches h env opts
  | remoteConnect endpoint => exact connectRemote_matches h endpoint
  | localPrep target => exact prepare_matches h env opts target
  | validate ctx => exact validate_matches h ctx
  | launch ctx => exact h.runOnce opts ctx
  | commandLoop ctx => exact absurd rfl (hs ctx)
  | done t => exact h.pure _

theorem commandLoop_matches {ctx : Context}
    (hp : P _ (svc.processCommands ctx) (svc'.processCommands ctx)) :
    P _ (commandLoop svc opts ctx) (commandLoop svc' opts ctx) := by
  unfold commandLoop
  refine h.bind hp fun close ↦ h.bind (h.record _) fun _ ↦ ?_
  split <;> exact h.pure _

/-- Whole sessions, if command sessions are related by `P` as well. -/
theorem runFrom_matches (hp : ∀ ctx, P _ (svc.processCommands ctx) (svc'.processCommands ctx))
    (steps : Nat) (state : State) :
    P _ (runFrom svc env opts steps state) (runFrom svc' env opts steps state) := by
  induction steps generalizing state with
  | zero => exact h.pure _
  | succ steps ih =>
    by_cases hd : ∃ t, state = .done t
    · obtain ⟨t, rfl⟩ := hd
      unfold runFrom
      exact h.bind (h.record _) fun _ ↦ h.bind h.settle fun _ ↦ h.bind (h.record _) fun _ ↦ h.pure _
    · have hn : ∀ t, state ≠ .done t := fun t ht ↦ hd ⟨t, ht⟩
      rw [runFrom_succ svc env opts hn, runFrom_succ svc' env opts hn]
      refine h.bind (h.record _) fun _ ↦ h.bind ?_ ih
      by_cases hc : ∃ ctx, state = .commandLoop ctx
      · obtain ⟨ctx, rfl⟩ := hc
        exact commandLoop_matches h opts (hp ctx)
      · exact advance_matches h env opts fun ctx he ↦ hc ⟨ctx, he⟩

end Matched

end Session

section Paired

/-- As `Services.Match`, with the engine by itself. -/
structure Services.Pairs (svc : Services σ) (svc' : Services τ)
    (P : (α : Type) → Act σ α → Act τ α → Prop) : Prop where
  pure : ∀ {α} (a : α), P α (pure a) (pure a)
  throw : ∀ {α} (e : Fault), P α (throw e) (throw e)
  bind : ∀ {α β} {act : Act σ α} {act' : Act τ α} {f : α → Act σ β} {f' : α → Act τ β},
    P α act act' → (∀ a, P β (f a) (f' a)) → P β (act >>= f) (act' >>= f')
  start : P Unit svc.start svc'.start
  attempt : ∀ ctx stop, P _ (svc.load ctx stop).attempt (svc'.load ctx stop).attempt
  validate : ∀ script, P Verdict (svc.validate script) (svc'.validate script)
  executeCommand : ∀ ctx line, P _ (svc.executeCommand ctx line) (svc'.executeCommand ctx line)
  connect : ∀ endpoint, P Unit (svc.connect endpoint) (svc'.connect endpoint)
  record : ∀ e, P Unit (svc.record e) (svc'.record e)
  say : ∀ text, P Unit (svc.say text) (svc'.say text)
  settle : P Unit svc.settle svc'.settle

namespace Session

variable {svc : Services σ} {svc' : Services τ} {P : (α : Type) → Act σ α → Act τ α → Prop}
  (h : svc.Pairs svc' P)

include h

theorem outcome_pairs (ctx : Context) (stop : Bool) :
    P _ (outcome svc ctx stop) (outcome svc' ctx stop) := by
  unfold outcome
  refine h.bind (h.attempt ctx stop) fun answer ↦ ?_
  cases answer with
  | ok failure? => exact h.pure _
  | error e => exact h.bind (h.record _) fun _ ↦ h.pure _

theorem launch_pairs (ctx : Context) (stop : Bool) :
    P _ (launch svc ctx stop) (launch svc' ctx stop) := by
  unfold launch
  refine h.bind (h.record _) fun _ ↦ h.bind (outcome_pairs h ctx stop) fun result ↦ ?_
  cases result with
  | completed => exact h.pure _
  | failed failure => exact h.bind (h.say _) fun _ ↦ h.bind h.settle fun _ ↦ h.pure _

theorem match_of_pairs : svc.Match svc' P where
  pure := h.pure
  throw := h.throw
  bind := h.bind
  start := h.start
  runOnce opts ctx := h.bind (launch_pairs h ctx opts.stop) fun _ ↦ h.pure _
  validate := h.validate
  executeCommand := h.executeCommand
  connect := h.connect
  record := h.record
  say := h.say
  settle := h.settle

end Session

end Paired

section Upheld

/-- The acts of the services have `P`, those of the consoles' command sessions perhaps not, and `P` passes
on to acts that are put together of them. -/
structure Services.Upholds (svc : Services σ) (P : (α : Type) → Act σ α → Prop) : Prop where
  pure : ∀ {α} (a : α), P α (pure a)
  throw : ∀ {α} (e : Fault), P α (throw e)
  bind : ∀ {α β} {act : Act σ α} {f : α → Act σ β}, P α act → (∀ a, P β (f a)) → P β (act >>= f)
  start : P Unit svc.start
  attempt : ∀ ctx stop, P _ (svc.load ctx stop).attempt
  validate : ∀ script, P Verdict (svc.validate script)
  executeCommand : ∀ ctx line, P _ (svc.executeCommand ctx line)
  connect : ∀ endpoint, P Unit (svc.connect endpoint)
  record : ∀ e, P Unit (svc.record e)
  say : ∀ text, P Unit (svc.say text)
  settle : P Unit svc.settle

namespace Session

variable {svc : Services σ} {P : (α : Type) → Act σ α → Prop} (h : svc.Upholds P)
  (env : Environment) (opts : Options)

include h

theorem match_of_upholds : svc.Match svc fun _ act _ ↦ P _ act :=
  match_of_pairs {
    pure := h.pure
    throw := h.throw
    bind := h.bind
    start := h.start
    attempt := h.attempt
    validate := h.validate
    executeCommand := h.executeCommand
    connect := h.connect
    record := h.record
    say := h.say
    settle := h.settle }

theorem advance_upholds {state : State} (hs : ∀ ctx, state ≠ .commandLoop ctx) :
    P _ (advance svc env opts state) :=
  advance_matches (match_of_upholds h) env opts hs

/-- A whole session, if command sessions have `P` as well. -/
theorem runFrom_upholds (hp : ∀ ctx, P _ (svc.processCommands ctx)) (steps : Nat) (state : State) :
    P _ (runFrom svc env opts steps state) :=
  runFrom_matches (match_of_upholds h) env opts hp steps state

end Session

end Upheld

section Answers

/-- In a state with `Ok` each call is answered so that `Good` holds of it, and `Ok` holds behind it. -/
structure Services.Answers (svc : Services σ) (Ok : σ → Prop) (Good : Call → Prop) : Prop where
  start : ∀ {s}, Ok s → Good (.start (svc.start s).1) ∧ Ok (svc.start s).2
  load : ∀ ctx stop {s}, Ok s →
    Good (.load ctx stop (svc.load ctx stop s).1) ∧ Ok (svc.load ctx stop s).2
  validate : ∀ script {s}, Ok s →
    Good (.validate script (svc.validate script s).1) ∧ Ok (svc.validate script s).2
  processCommands : ∀ ctx {s}, Ok s →
    Good (.process ctx (svc.processCommands ctx s).1) ∧ Ok (svc.processCommands ctx s).2
  executeCommand : ∀ ctx line {s}, Ok s →
    Good (.execute ctx line (svc.executeCommand ctx line s).1) ∧
      Ok (svc.executeCommand ctx line s).2
  connect : ∀ endpoint {s}, Ok s →
    Good (.connect endpoint (svc.connect endpoint s).1) ∧ Ok (svc.connect endpoint s).2
  write : ∀ bs {s}, Ok s → Good (.write bs (svc.write bs s).1) ∧ Ok (svc.write bs s).2
  flush : ∀ {s}, Ok s → Good (.flush (svc.flush s).1) ∧ Ok (svc.flush s).2
  note : ∀ e {s}, Ok s → Ok (svc.note e s).2

/-- `act` keeps a state with `Ok` and a log of calls that are all `Good`. -/
def KeepsGood (Ok : σ → Prop) (Good : Call → Prop) (α : Type) (act : Act (σ × List Call) α) : Prop :=
  ∀ p, Ok p.1 ∧ (∀ c ∈ p.2, Good c) → Ok (act p).2.1 ∧ ∀ c ∈ (act p).2.2, Good c

theorem logged_keepsGood {Ok : σ → Prop} {Good : Call → Prop} {α : Type} {call : α → Call}
    {act : StateM σ α} (h : ∀ {s}, Ok s → Good (call (act s).1) ∧ Ok (act s).2)
    {p : σ × List Call} (hp : Ok p.1 ∧ ∀ c ∈ p.2, Good c) :
    Ok (logged call act p).2.1 ∧ ∀ c ∈ (logged call act p).2.2, Good c := by
  obtain ⟨hgood, hok⟩ := h hp.1
  refine ⟨hok, ?_⟩
  intro c hc
  obtain hc | hc := List.mem_append.mp hc
  · exact hp.2 c hc
  · rw [List.mem_singleton.mp hc]
    exact hgood

namespace Services.Answers

variable {svc : Services σ} {Ok : σ → Prop} {Good : Call → Prop} (h : svc.Answers Ok Good)

include h

theorem upholds : svc.watched.Upholds (KeepsGood Ok Good) where
  pure _ _ hp := hp
  throw _ _ hp := hp
  bind := by
    intro α β act f hact hf p hp
    have hmid := hact p hp
    rw [Act.bind_apply]
    generalize act p = x at hmid ⊢
    obtain ⟨_ | a, q⟩ := x
    · exact hmid
    · exact hf a q hmid
  start _ hp := logged_keepsGood h.start hp
  attempt ctx stop _ hp := logged_keepsGood (h.load ctx stop) hp
  validate script _ hp := logged_keepsGood (h.validate script) hp
  executeCommand ctx line _ hp := logged_keepsGood (h.executeCommand ctx line) hp
  connect endpoint _ hp := logged_keepsGood (h.connect endpoint) hp
  record e _ hp := ⟨h.note e hp.1, hp.2⟩
  say text _ hp := logged_keepsGood (h.write (Utf8.encode text)) hp
  settle _ hp := logged_keepsGood h.flush hp

theorem calls_good (env : Session.Environment) (opts : Options) (steps : Nat) {s : σ} (hs : Ok s) :
    ∀ c ∈ Session.calls svc env opts steps s, Good c := by
  have hprocess : ∀ ctx, KeepsGood Ok Good _ (svc.watched.processCommands ctx) :=
    fun ctx _ hp ↦ logged_keepsGood (h.processCommands ctx) hp
  have hnil : ∀ c ∈ ([] : List Call), Good c := fun _ hc ↦ absurd hc List.not_mem_nil
  exact (Session.runFrom_upholds h.upholds env opts hprocess steps .modeSelect (s, []) ⟨hs, hnil⟩).2

end Services.Answers

end Answers

section Together

variable {α β : Type}

/-- From related states both acts answer alike, and the states that they leave are related. -/
def Together (R : σ → τ → Prop) (act : Act σ α) (act' : Act τ α) : Prop :=
  ∀ s t, R s t → (act s).1 = (act' t).1 ∧ R (act s).2 (act' t).2

namespace Together

variable {R : σ → τ → Prop} {act : Act σ α} {act' : Act τ α} {f : α → Act σ β} {f' : α → Act τ β}

theorem pure (a : α) : Together R (pure a) (pure a) := fun _ _ h ↦ ⟨rfl, h⟩

theorem throw (e : Fault) : Together R (throw e : Act σ α) (throw e) := fun _ _ h ↦ ⟨rfl, h⟩

theorem bind (h : Together R act act') (hf : ∀ a, Together R (f a) (f' a)) :
    Together R (act >>= f) (act' >>= f') := by
  intro s t hs
  obtain ⟨ha, hr⟩ := h s t hs
  rw [Act.bind_apply, Act.bind_apply]
  generalize act s = x at ha hr ⊢
  generalize act' t = y at ha hr ⊢
  obtain ⟨e | a, s⟩ := x <;> obtain ⟨e' | a', t⟩ := y <;> cases ha
  · exact ⟨rfl, hr⟩
  · exact hf a s t hr

end Together

end Together

end DebugSession
