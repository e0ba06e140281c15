import DebugSession.Proofs.Session.Course

/-!
Sessions on an output that takes whatever it is given. `Gives` says of an act that it succeeds, and with
what; `Takes` says of services that showing, settling and telling the log cannot fail, so that a session
goes on behind them and its log of calls has their answers.
-/

namespace DebugSession

variable {σ α β : Type}

/-- From a state with `P`, `act` succeeds and leaves a state that its answer and `Q` go with. -/
def Gives (P : σ → Prop) (act : Act σ α) (Q : α → σ → Prop) : Prop :=
  ∀ s, P s → ∃ a t, act s = (.ok a, t) ∧ Q a t

namespace Gives

variable {P : σ → Prop} {Q : α → σ → Prop} {R : β → σ → Prop} {act : Act σ α} {f : α → Act σ β}

theorem pure {a : α} (h : ∀ s, P s → Q a s) : Gives P (pure a) Q :=
  fun s hs ↦ ⟨a, s, rfl, h s hs⟩

theorem bind (h : Gives P act Q) (h' : ∀ a, Gives (Q a) (f a) R) : Gives P (act >>= f) R := by
  intro s hs
  obtain ⟨a, t, ha, ht⟩ := h s hs
  obtain ⟨b, u, hb, hu⟩ := h' a t ht
  exact ⟨b, u, by rw [Act.bind_apply, ha]; exact hb, hu⟩

theorem known {a : α} (h : Gives P (f a) R) (b : α) : Gives (fun s ↦ b = a ∧ P s) (f b) R := by
  intro s hs
  obtain ⟨rfl, hs⟩ := hs
  exact h s hs

theorem mono {Q' : α → σ → Prop} (h : Gives P act Q) (hq : ∀ a s, Q a s → Q' a s) :
    Gives P act Q' := by
  intro s hs
  obtain ⟨a, t, ha, ht⟩ := h s hs
  exact ⟨a, t, ha, hq a t ht⟩

end Gives

namespace Session

/-- The last state of a session. -/
def finish (svc : Services σ) (t : Termination) : Act σ (Option Termination) := do
  svc.record (.entered (State.done t).name)
  svc.settle
  svc.record (.finished t)
  return some t

theorem runFrom_done (svc : Services σ) (env : Environment) (opts : Options) (steps : Nat)
    (t : Termination) : runFrom svc env opts (steps + 1) (.done t) = finish svc t := rfl

section Given

variable {svc : Services σ} {P : σ → Prop} (hrecord : ∀ e, Gives P (svc.record e) fun _ ↦ P)

include hrecord

theorem finish_gives (hsettle : Gives P svc.settle fun _ ↦ P) (t : Termination) :
    Gives P (finish svc t) fun r s ↦ r = some t ∧ P s := by
  unfold finish
  refine (hrecord _).bind fun _ ↦ hsettle.bind fun _ ↦ (hrecord _).bind fun _ ↦ .pure ?_
  intro s hs
  exact ⟨rfl, hs⟩

theorem runFrom_gives {env : Environment} {opts : Options} {steps : Nat} {state : State}
    {Q : State → σ → Prop} {R : Option Termination → σ → Prop} (hn : ∀ t, state ≠ .done t)
    (ha : Gives P (advance svc env opts state) Q)
    (hr : ∀ next, Gives (Q next) (runFrom svc env opts steps next) R) :
    Gives P (runFrom svc env opts (steps + 1) state) R := by
  rw [runFrom_succ svc env opts hn]
  exact (hrecord _).bind fun _ ↦ ha.bind hr

end Given

end Session

/-- The output of `svc` takes whatever it is given: in a state with `V`, the octets shown so far are known,
and neither showing more nor telling the log changes anything else that `V` is about. -/
structure Services.Takes (svc : Services σ) (V : Bytes → σ → Prop) : Prop where
  write : ∀ bs {shown s}, V shown s →
    (svc.write bs s).1 = .ok () ∧ V (shown ++ bs) (svc.write bs s).2
  flush : ∀ {shown s}, V shown s → (svc.flush s).1 = .ok () ∧ V shown (svc.flush s).2
  note : ∀ e {shown s}, V shown s → V shown (svc.note e s).2

/-- `shown` has been shown, and `log` is the log of calls. -/
def At (V : Bytes → σ → Prop) (shown : Bytes) (log : List Call) (p : σ × List Call) : Prop :=
  V shown p.1 ∧ p.2 = log

theorem At.logged_gives {V : Bytes → σ → Prop} {shown shown' : Bytes} {log : List Call}
    {act : Act σ α} {Q : α → Prop} (call : Except Fault α → Call)
    (h : ∀ {s}, V shown s → ∃ a, (act s).1 = .ok a ∧ Q a ∧ V shown' (act s).2) :
    Gives (At V shown log) (logged call act) fun a p ↦
      Q a ∧ At V shown' (log ++ [call (.ok a)]) p := by
  intro p hp
  obtain ⟨hs, rfl⟩ := hp
  obtain ⟨a, hanswer, hq, ht⟩ := h hs
  have he : logged call act p = ((act p.1).1, (act p.1).2, p.2 ++ [call (act p.1).1]) := rfl
  rw [hanswer] at he
  exact ⟨a, _, he, hq, ht, rfl⟩

namespace Services.Takes

variable {svc : Services σ} {V : Bytes → σ → Prop} {shown : Bytes} {log : List Call}

theorem record_gives (h : svc.Takes V) (e : Event) :
    Gives (At V shown log) (svc.watched.record e) fun _ ↦ At V shown log :=
  fun _ hp ↦ ⟨(), _, rfl, h.note e hp.1, hp.2⟩

theorem say_gives (h : svc.Takes V) (text : String) :
    Gives (At V shown log) (svc.watched.say text) fun _ ↦
      At V (shown ++ Utf8.encode text) (log ++ [.write (Utf8.encode text) (.ok ())]) := by
  intro p hp
  obtain ⟨hs, rfl⟩ := hp
  obtain ⟨hanswer, hs⟩ := h.write (Utf8.encode text) hs
  have he : svc.watched.say text p = ((svc.write (Utf8.encode text) p.1).1.mapError .io,
      (svc.write (Utf8.encode text) p.1).2,
      p.2 ++ [.write (Utf8.encode text) (svc.write (Utf8.encode text) p.1).1]) := rfl
  rw [hanswer] at he
  exact ⟨(), _, he, hs, rfl⟩

theorem settle_gives (h : svc.Takes V) :
    Gives (At V shown log) svc.watched.settle fun _ ↦ At V shown (log ++ [.flush (.ok ())]) := by
  intro p hp
  obtain ⟨hs, rfl⟩ := hp
  obtain ⟨hanswer, hs⟩ := h.flush hs
  have he : svc.watched.settle p = ((svc.flush p.1).1.mapError .io, (svc.flush p.1).2,
      p.2 ++ [.flush (svc.flush p.1).1]) := rfl
  rw [hanswer] at he
  exact ⟨(), _, he, hs, rfl⟩

theorem finish_gives (h : svc.Takes V) (t : Termination) :
    Gives (At V shown log) (Session.finish svc.watched t) fun r p ↦
      r = some t ∧ At V shown (log ++ [.flush (.ok ())]) p :=
  (h.record_gives _).bind fun _ ↦ h.settle_gives.bind fun _ ↦
    (h.record_gives _).bind fun _ ↦ .pure fun _ hp ↦ ⟨rfl, hp⟩

end Services.Takes

end DebugSession
