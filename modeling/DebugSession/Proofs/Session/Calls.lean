import DebugSession.Session.Machine

/-!
The calls of a session. A session on watched services goes as it would without the watch, and the
watch keeps a log of the calls with their answers; `Emits` says which calls an act may log.
-/

namespace DebugSession

variable {σ α β : Type}

namespace Act

theorem pure_apply (a : α) (s : σ) : (pure a : Act σ α) s = (.ok a, s) := rfl

theorem bind_apply (act : Act σ α) (f : α → Act σ β) (s : σ) :
    (act >>= f) s = match act s with
      | (.ok a, t) => f a t
      | (.error e, t) => (.error e, t) := by
  simp only [bind, ExceptT.bind, ExceptT.mk, StateT.bind]
  rcases act s with ⟨_ | _, _⟩ <;> rfl

theorem bind_ok {act : Act σ α} {s t : σ} {a : α} (h : act s = (.ok a, t)) (f : α → Act σ β) :
    (act >>= f) s = f a t := by
  rw [bind_apply, h]

theorem bind_error {act : Act σ α} {s t : σ} {e : Fault} (h : act s = (.error e, t))
    (f : α → Act σ β) : (act >>= f) s = (.error e, t) := by
  rw [bind_apply, h]

end Act

/-- One call of a session to what it works with, and the answer to it. -/
inductive Call where
  | start (answer : Except Fault Unit)
  | execute (ctx : Context) (line : String) (answer : Except Fault (Signal × Context))
  | validate (script : Path) (answer : Except Fault Verdict)
  | load (ctx : Context) (stop : Bool) (answer : Except Fault (Option RunFailure))
  | process (ctx : Context) (answer : Except Fault (Signal × Context))
  | connect (endpoint : Endpoint) (answer : Except Fault Unit)
  | write (bs : Bytes) (answer : Except IoError Unit)
  | flush (answer : Except IoError Unit)

/-- A call without the answer to it. -/
inductive Request where
  | start
  | execute (ctx : Context) (line : String)
  | validate (script : Path)
  | load (ctx : Context) (stop : Bool)
  | process (ctx : Context)
  | connect (endpoint : Endpoint)
  | write (bs : Bytes)
  | flush

def Call.request : Call → Request
  | .start _ => .start
  | .execute ctx line _ => .execute ctx line
  | .validate script _ => .validate script
  | .load ctx stop _ => .load ctx stop
  | .process ctx _ => .process ctx
  | .connect endpoint _ => .connect endpoint
  | .write bs _ => .write bs
  | .flush _ => .flush

/-- Puts a call with its answer at the end of a log. -/
def logged (call : α → Call) (act : StateM σ α) : StateM (σ × List Call) α := fun s ↦
  let (answer, t) := act s.1
  (answer, t, s.2 ++ [call answer])

def Services.watched (svc : Services σ) : Services (σ × List Call) where
  start := logged .start svc.start
  load ctx stop := logged (.load ctx stop) (svc.load ctx stop)
  validate script := logged (.validate script) (svc.validate script)
  processCommands ctx := logged (.process ctx) (svc.processCommands ctx)
  executeCommand ctx line := logged (.execute ctx line) (svc.executeCommand ctx line)
  connect endpoint := logged (.connect endpoint) (svc.connect endpoint)
  write bs := logged (.write bs) (svc.write bs)
  flush := logged .flush svc.flush
  note e := fun s ↦ ((), (svc.note e s.1).2, s.2)

/-- `watched` does what `act` does, and `P` holds of the calls it logs and of its answer. -/
def Emits (P : List Call → Except Fault α → Prop) (watched : Act (σ × List Call) α)
    (act : Act σ α) : Prop :=
  ∀ s log, ∃ calls, watched (s, log) = ((act s).1, (act s).2, log ++ calls) ∧ P calls (act s).1

namespace Emits

theorem pure {P : List Call → Except Fault α → Prop} {a : α} (h : P [] (.ok a)) :
    Emits P (pure a : Act (σ × List Call) α) (pure a) :=
  fun _ log ↦ ⟨[], by simp [Act.pure_apply], h⟩

theorem bind {P : List Call → Except Fault α → Prop} {Q : List Call → Except Fault β → Prop}
    {watched : Act (σ × List Call) α} {act : Act σ α} {wf : α → Act (σ × List Call) β}
    {f : α → Act σ β} (h : Emits P watched act)
    (herror : ∀ calls e, P calls (.error e) → Q calls (.error e))
    (hok : ∀ calls a, P calls (.ok a) → Emits (fun more ↦ Q (calls ++ more)) (wf a) (f a)) :
    Emits Q (watched >>= wf) (act >>= f) := by
  intro s log
  obtain ⟨calls, he, hp⟩ := h s log
  simp only [Act.bind_apply, he]
  rcases ha : act s with ⟨_ | a, t⟩ <;> rw [ha] at hp
  · exact ⟨calls, rfl, herror calls _ hp⟩
  · obtain ⟨more, he', hq⟩ := hok calls a hp t (log ++ calls)
    exact ⟨calls ++ more, by simp only [he', List.append_assoc], hq⟩

theorem mono {P Q : List Call → Except Fault α → Prop} {watched : Act (σ × List Call) α}
    {act : Act σ α} (h : Emits P watched act) (hpq : ∀ calls r, P calls r → Q calls r) :
    Emits Q watched act := by
  intro s log
  obtain ⟨calls, he, hp⟩ := h s log
  exact ⟨calls, he, hpq _ _ hp⟩

theorem logged (call : Except Fault α → Call) (act : Act σ α) :
    Emits (fun calls r ↦ calls = [call r]) (logged call act) act :=
  fun _ _ ↦ ⟨_, rfl, rfl⟩

theorem logged_bind (call : Except Fault α → Call) (act : Act σ α)
    {Q : List Call → Except Fault β → Prop} {wf : α → Act (σ × List Call) β} {f : α → Act σ β}
    (herror : ∀ e, Q [call (.error e)] (.error e))
    (hok : ∀ a, Emits (fun more ↦ Q (call (.ok a) :: more)) (wf a) (f a)) :
    Emits Q (DebugSession.logged call act >>= wf) (act >>= f) := by
  refine (logged call act).bind ?_ ?_
  · intro calls e h
    rw [h]
    exact herror e
  · intro calls a h
    rw [h]
    exact hok a

end Emits

namespace Session

variable (svc : Services σ) {Q : List Call → Except Fault β → Prop}
  {wf : Unit → Act (σ × List Call) β} {f : Unit → Act σ β}

theorem record_apply (e : Event) (s : σ) : svc.record e s = (.ok (), (svc.note e s).2) := rfl

theorem record_bind (e : Event) (h : Emits Q (wf ()) (f ())) :
    Emits Q (svc.watched.record e >>= wf) (svc.record e >>= f) := by
  intro s log
  obtain ⟨calls, he, hp⟩ := h (svc.note e s).2 log
  exact ⟨calls, he, hp⟩

theorem say_bind (text : String)
    (herror : ∀ e, Q [.write (Utf8.encode text) (.error e)] (.error (.io e)))
    (hok : Emits (fun more ↦ Q (.write (Utf8.encode text) (.ok ()) :: more)) (wf ()) (f ())) :
    Emits Q (svc.watched.say text >>= wf) (svc.say text >>= f) := by
  have hsay : Emits (fun calls r ↦ ∃ answer, calls = [.write (Utf8.encode text) answer] ∧
      r = answer.mapError .io) (svc.watched.say text) (svc.say text) :=
    fun _ _ ↦ ⟨_, rfl, _, rfl, rfl⟩
  refine hsay.bind ?_ ?_
  · intro calls e h
    obtain ⟨answer, rfl, he⟩ := h
    cases answer <;> cases he
    exact herror _
  · intro calls a h
    obtain ⟨answer, rfl, he⟩ := h
    cases answer <;> cases he
    exact hok

theorem settle_bind (herror : ∀ e, Q [.flush (.error e)] (.error (.io e)))
    (hok : Emits (fun more ↦ Q (.flush (.ok ()) :: more)) (wf ()) (f ())) :
    Emits Q (svc.watched.settle >>= wf) (svc.settle >>= f) := by
  have hsettle : Emits (fun calls r ↦ ∃ answer, calls = [.flush answer] ∧
      r = answer.mapError .io) svc.watched.settle svc.settle :=
    fun _ _ ↦ ⟨_, rfl, _, rfl, rfl⟩
  refine hsettle.bind ?_ ?_
  · intro calls e h
    obtain ⟨answer, rfl, he⟩ := h
    cases answer <;> cases he
    exact herror _
  · intro calls a h
    obtain ⟨answer, rfl, he⟩ := h
    cases answer <;> cases he
    exact hok

end Session
end DebugSession
