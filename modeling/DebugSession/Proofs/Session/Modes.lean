import DebugSession.Proofs.Session.Induction
import DebugSession.Proofs.Session.Output
import DebugSession.Proofs.Session.Phases
import DebugSession.Rehearsal.Stage

/-!
Sessions that do not get to a script. What they do is an `Errand`: they announce something, refuse what
they were asked, or connect to a server. The options alone decide which, and nothing that belongs to
running scripts is asked for or makes a difference.
-/

namespace DebugSession

variable {σ τ : Type}

/-- Services that have the connection and the output in common, which `R` relates; the output takes what it
is given. The engines, checkers and consoles need have nothing to do with each other. -/
structure Services.Share (svc : Services σ) (svc' : Services τ) (R : σ → τ → Prop) : Prop where
  connect : ∀ endpoint, Together R (svc.connect endpoint) (svc'.connect endpoint)
  write : ∀ bs {s t}, R s t → (svc.write bs s).1 = .ok () ∧ (svc'.write bs t).1 = .ok () ∧
    R (svc.write bs s).2 (svc'.write bs t).2
  flush : ∀ {s t}, R s t → (svc.flush s).1 = .ok () ∧ (svc'.flush t).1 = .ok () ∧
    R (svc.flush s).2 (svc'.flush t).2
  note : ∀ e {s t}, R s t → R (svc.note e s).2 (svc'.note e t).2

namespace Session

section Errand

inductive Errand where
  | say (n : Notice) (t : Termination)
  | refuse (e : EndpointError)
  | connect (endpoint : Endpoint)

def errand? (env : Environment) (opts : Options) : Option Errand :=
  if opts.version then some (.say (.banner env.version) .version)
  else if opts.help then some (.say (.help env.helpText) .help)
  else match opts.endpoint? with
    | some (.error e) => some (.refuse e)
    | some (.ok endpoint) => some (.connect endpoint)
    | none => if opts.target = none then some (.say .missingTarget .missingTarget) else none

variable {env env' : Environment} {opts opts' : Options}

theorem errand?_isSome (env : Environment) (h : ∀ target, ¬ opts.IsLocal target) :
    ∃ errand, errand? env opts = some errand := by
  unfold errand?
  split
  · exact ⟨_, rfl⟩
  next hv =>
    split
    · exact ⟨_, rfl⟩
    next hh =>
      split
      · exact ⟨_, rfl⟩
      · exact ⟨_, rfl⟩
      next he =>
        have hr : opts.remote = none := Option.map_eq_none_iff.mp he
        cases ht : opts.target with
        | none => exact ⟨_, rfl⟩
        | some target => exact absurd ⟨by simpa using hv, by simpa using hh, hr, ht⟩ (h target)

theorem errand?_congr (hversion : env'.version = env.version) (hhelp : env'.helpText = env.helpText)
    (hv : opts'.version = opts.version) (hh : opts'.help = opts.help)
    (hr : opts'.remote = opts.remote) {errand errand' : Errand} (h : errand? env opts = some errand)
    (h' : errand? env' opts' = some errand') : errand' = errand := by
  have he : opts'.endpoint? = opts.endpoint? := congrArg (Option.map _) hr
  rw [errand?, hversion, hhelp, hv, hh, he] at h'
  rw [errand?] at h
  by_cases hasked : opts.version
  · rw [if_pos hasked] at h h'
    exact Option.some.inj (h'.symm.trans h)
  rw [if_neg hasked] at h h'
  by_cases hasked : opts.help
  · rw [if_pos hasked] at h h'
    exact Option.some.inj (h'.symm.trans h)
  rw [if_neg hasked] at h h'
  generalize opts.endpoint? = endpoint? at h h'
  rcases endpoint? with _ | e | endpoint
  · -- The targets count only here, and neither session has one.
    have hnone (target? : Option String) (errand : Errand)
        (h : (if target? = none then some (Errand.say .missingTarget .missingTarget) else none) =
          some errand) : .say .missingTarget .missingTarget = errand := by
      split at h
      · exact Option.some.inj h
      · cases h
    exact (hnone _ _ h').symm.trans (hnone _ _ h)
  · exact Option.some.inj (h'.symm.trans h)
  · exact Option.some.inj (h'.symm.trans h)

variable (svc : Services σ)

def Errand.act : Errand → Act σ (Option Termination)
  | .say n t => do
    announce svc n
    finish svc t
  | .refuse e => throw (.badEndpoint e)
  | .connect endpoint => do
    svc.record (.entered (State.remoteConnect endpoint).name)
    announce svc (.connecting endpoint)
    svc.settle
    svc.connect endpoint
    finish svc .remoteClosed

/-- As much of it as the first state does. -/
def Errand.select : Errand → Act σ State
  | .say n t => do
    announce svc n
    return .done t
  | .refuse e => throw (.badEndpoint e)
  | .connect endpoint => return .remoteConnect endpoint

theorem selectMode_errand {errand : Errand} (h : errand? env opts = some errand) :
    selectMode svc env opts = errand.select svc := by
  rw [errand?] at h
  rw [selectMode]
  by_cases hv : opts.version
  · rw [if_pos hv] at h ⊢
    cases h
    rfl
  rw [if_neg hv] at h ⊢
  by_cases hh : opts.help
  · rw [if_pos hh] at h ⊢
    cases h
    rfl
  rw [if_neg hh] at h ⊢
  generalize opts.endpoint? = endpoint? at h ⊢
  rcases endpoint? with _ | e | endpoint
  · generalize opts.target = target? at h ⊢
    cases target? with
    | none =>
      cases h
      rfl
    | some target => cases h
  · cases h
    rfl
  · cases h
    rfl

theorem run_errand {errand : Errand} (h : errand? env opts = some errand) (steps : Nat) :
    run svc env opts (steps + 3) = (do
      svc.record (.entered State.modeSelect.name)
      errand.act svc) := by
  rw [run, runFrom_succ svc env opts (by simp), advance, selectMode_errand svc h]
  congr 1
  funext _
  cases errand with
  | say n t => simp only [Errand.select, Errand.act, bind_assoc, pure_bind, runFrom_done]
  | refuse e => rfl
  | connect endpoint =>
    rw [Errand.select, pure_bind, runFrom_succ svc env opts (by simp), advance, connectRemote,
      Errand.act]
    simp only [bind_assoc, pure_bind, runFrom_done]

/-- The calls of an errand, and what comes of it, on an output that does not fail. -/
inductive Errand.Does : Errand → List Call → Except Fault (Option Termination) → Prop
  | say (n : Notice) (t : Termination) :
      Does (.say n t) [.write (Utf8.encode n.text) (.ok ()), .flush (.ok ())] (.ok (some t))
  | refuse (e : EndpointError) : Does (.refuse e) [] (.error (.badEndpoint e))
  | connect (endpoint : Endpoint) :
      Does (.connect endpoint)
        [.write (Utf8.encode (Notice.connecting endpoint).text) (.ok ()), .flush (.ok ()),
          .connect endpoint (.ok ()), .flush (.ok ())] (.ok (some .remoteClosed))
  | unconnected (endpoint : Endpoint) (e : Fault) :
      Does (.connect endpoint)
        [.write (Utf8.encode (Notice.connecting endpoint).text) (.ok ()), .flush (.ok ()),
          .connect endpoint (.error e)] (.error e)

end Errand

end Session

namespace Services.Share

open Session

variable {svc : Services σ} {svc' : Services τ} {R : σ → τ → Prop} (h : svc.Share svc' R)

include h

theorem takes : svc.Takes fun _ s ↦ ∃ t, R s t where
  write bs _ _ := fun ⟨_, hr⟩ ↦ ⟨(h.write bs hr).1, _, (h.write bs hr).2.2⟩
  flush := fun ⟨_, hr⟩ ↦ ⟨(h.flush hr).1, _, (h.flush hr).2.2⟩
  note e _ _ := fun ⟨_, hr⟩ ↦ ⟨_, h.note e hr⟩

theorem act_does (errand : Errand) {p : σ × List Call} (hp : ∃ t, R p.1 t) :
    ∃ log r q, errand.act svc.watched p = (r, q) ∧ q.2 = p.2 ++ log ∧ errand.Does log r := by
  have hat : At (fun _ s ↦ ∃ t, R s t) [] p.2 p := ⟨hp, rfl⟩
  cases errand with
  | say n t =>
    obtain ⟨_, q, hq, rfl, -, hlog⟩ :=
      ((h.takes.say_gives n.text).bind fun _ ↦ h.takes.finish_gives t) p hat
    exact ⟨_, _, q, hq, hlog.trans (List.append_assoc ..), .say n t⟩
  | refuse e => exact ⟨[], _, p, rfl, (List.append_nil p.2).symm, .refuse e⟩
  | connect endpoint =>
    obtain ⟨_, q, hentered, hq⟩ := h.takes.record_gives
      (.entered (State.remoteConnect endpoint).name) p hat
    obtain ⟨_, q, hsaid, hq⟩ := h.takes.say_gives (Notice.connecting endpoint).text q hq
    obtain ⟨_, q, hsettled, ⟨t, hr⟩, hlog⟩ := h.takes.settle_gives q hq
    have hact : Errand.act svc.watched (.connect endpoint) p =
        (svc.watched.connect endpoint >>= fun _ ↦ finish svc.watched .remoteClosed) q := by
      rw [Errand.act, Act.bind_ok hentered, announce, Act.bind_ok hsaid, Act.bind_ok hsettled]
    have hlater := (h.connect endpoint q.1 t hr).2
    have hconnect : svc.watched.connect endpoint q = ((svc.connect endpoint q.1).1,
        (svc.connect endpoint q.1).2, q.2 ++ [.connect endpoint (svc.connect endpoint q.1).1]) := rfl
    generalize svc.connect endpoint q.1 = connected at hlater hconnect
    obtain ⟨e | _, s⟩ := connected
    · refine ⟨_, _, _, hact.trans (Act.bind_error hconnect _), ?_, .unconnected endpoint e⟩
      simp [hlog]
    · have hat : At (fun _ s ↦ ∃ t, R s t) [] (q.2 ++ [.connect endpoint (.ok ())])
          (s, q.2 ++ [.connect endpoint (.ok ())]) := ⟨⟨_, hlater⟩, rfl⟩
      obtain ⟨_, q', hfinish, rfl, -, hlog'⟩ := h.takes.finish_gives .remoteClosed _ hat
      refine ⟨_, _, q', (hact.trans (Act.bind_ok hconnect _)).trans hfinish, ?_, .connect endpoint⟩
      simp [hlog', hlog]

/-- Two states with the same log of calls. -/
def Logged (R : σ → τ → Prop) (p : σ × List Call) (q : τ × List Call) : Prop :=
  R p.1 q.1 ∧ p.2 = q.2

theorem record_together (e : Event) :
    Together (Logged R) (svc.watched.record e) (svc'.watched.record e) :=
  fun _ _ hp ↦ ⟨rfl, h.note e hp.1, hp.2⟩

theorem say_together (text : String) :
    Together (Logged R) (svc.watched.say text) (svc'.watched.say text) := by
  intro p q hp
  obtain ⟨hanswer, hanswer', hr⟩ := h.write (Utf8.encode text) hp.1
  change Except.mapError _ (svc.write _ p.1).1 = Except.mapError _ (svc'.write _ q.1).1 ∧
    R (svc.write _ p.1).2 (svc'.write _ q.1).2 ∧ p.2 ++ [_] = q.2 ++ [_]
  rw [hanswer, hanswer', hp.2]
  exact ⟨rfl, hr, rfl⟩

theorem settle_together : Together (Logged R) svc.watched.settle svc'.watched.settle := by
  intro p q hp
  obtain ⟨hanswer, hanswer', hr⟩ := h.flush hp.1
  change Except.mapError _ (svc.flush p.1).1 = Except.mapError _ (svc'.flush q.1).1 ∧
    R (svc.flush p.1).2 (svc'.flush q.1).2 ∧ p.2 ++ [_] = q.2 ++ [_]
  rw [hanswer, hanswer', hp.2]
  exact ⟨rfl, hr, rfl⟩

theorem connect_together (endpoint : Endpoint) :
    Together (Logged R) (svc.watched.connect endpoint) (svc'.watched.connect endpoint) := by
  intro p q hp
  obtain ⟨hanswer, hr⟩ := h.connect endpoint _ _ hp.1
  change (svc.connect endpoint p.1).1 = (svc'.connect endpoint q.1).1 ∧
    R (svc.connect endpoint p.1).2 (svc'.connect endpoint q.1).2 ∧ p.2 ++ [_] = q.2 ++ [_]
  rw [hanswer, hp.2]
  exact ⟨rfl, hr, rfl⟩

theorem finish_together (t : Termination) :
    Together (Logged R) (finish svc.watched t) (finish svc'.watched t) :=
  (h.record_together _).bind fun _ ↦ h.settle_together.bind fun _ ↦
    (h.record_together _).bind fun _ ↦ .pure _

theorem act_together (errand : Errand) :
    Together (Logged R) (errand.act svc.watched) (errand.act svc'.watched) := by
  cases errand with
  | say n t => exact (h.say_together _).bind fun _ ↦ h.finish_together t
  | refuse e => exact .throw _
  | connect endpoint =>
    exact (h.record_together _).bind fun _ ↦ (h.say_together _).bind fun _ ↦
      h.settle_together.bind fun _ ↦ (h.connect_together endpoint).bind fun _ ↦
        h.finish_together _

end Services.Share

namespace Session

/-- What a session does that does not get to a script, by what is asked of it: the version goes before the
help, the help before a server, and a server before a script. `log` is its log of calls and `r` what it
gives. -/
structure Dispatches (env : Environment) (opts : Options) (log : List Call)
    (r : Except Fault (Option Termination)) : Prop where
  version : opts.version →
    log = [.write (Utf8.encode (Notice.banner env.version).text) (.ok ()), .flush (.ok ())] ∧
      r = .ok (some .version)
  help : opts.version = false → opts.help →
    log = [.write (Utf8.encode (Notice.help env.helpText).text) (.ok ()), .flush (.ok ())] ∧
      r = .ok (some .help)
  badEndpoint : opts.version = false → opts.help = false → ∀ values e, opts.remote = some values →
    Endpoint.ofValues values = .error e → log = [] ∧ r = .error (.badEndpoint e)
  remote : opts.version = false → opts.help = false → ∀ values endpoint, opts.remote = some values →
    Endpoint.ofValues values = .ok endpoint → ∃ answer closing,
      log = .write (Utf8.encode (Notice.connecting endpoint).text) (.ok ()) :: .flush (.ok ()) ::
        .connect endpoint answer :: closing ∧
      serviceCalls closing = [] ∧ r = answer.map fun _ ↦ some .remoteClosed
  noTarget : opts.version = false → opts.help = false → opts.remote = none → opts.target = none →
    log = [.write (Utf8.encode Notice.missingTarget.text) (.ok ()), .flush (.ok ())] ∧
      r = .ok (some .missingTarget)
  unused : ∀ c ∈ serviceCalls log, ∃ endpoint answer, c = .connect endpoint answer

theorem Errand.Does.dispatches {env : Environment} {opts : Options} {errand : Errand}
    {log : List Call} {r : Except Fault (Option Termination)} (h : errand.Does log r)
    (he : errand? env opts = some errand) : Dispatches env opts log r where
  version hv := by
    obtain rfl : _ = errand := by simpa [errand?, hv] using he
    cases h
    exact ⟨rfl, rfl⟩
  help hv hh := by
    obtain rfl : _ = errand := by simpa [errand?, hv, hh] using he
    cases h
    exact ⟨rfl, rfl⟩
  badEndpoint hv hh values e hr hvalues := by
    obtain rfl : _ = errand := by
      simpa [errand?, hv, hh, Options.endpoint?, hr, hvalues] using he
    cases h
    exact ⟨rfl, rfl⟩
  remote hv hh values endpoint hr hvalues := by
    obtain rfl : _ = errand := by
      simpa [errand?, hv, hh, Options.endpoint?, hr, hvalues] using he
    cases h with
    | connect => exact ⟨.ok (), _, rfl, rfl, rfl⟩
    | unconnected _ e => exact ⟨.error e, _, rfl, rfl, rfl⟩
  noTarget hv hh hr ht := by
    obtain rfl : _ = errand := by
      simpa [errand?, hv, hh, Options.endpoint?, hr, ht] using he
    cases h
    exact ⟨rfl, rfl⟩
  unused c hc := by
    cases h with
    | say | refuse => cases hc
    | connect endpoint | unconnected endpoint =>
      obtain rfl : c = _ := List.mem_singleton.mp hc
      exact ⟨endpoint, _, rfl⟩

/-- A session that is not asked to run a script, or is asked for something that goes before it. It does what
`Dispatches` says; and another one that is asked for the same, with the same texts, connection and output,
does exactly that too, whatever else its machine, its options and its services are. -/
theorem early_modes_leave_scripts_alone {svc : Services σ} {svc' : Services τ} {R : σ → τ → Prop}
    (h : svc.Share svc' R) (env env' : Environment) (opts opts' : Options)
    (hversion : env'.version = env.version) (hhelp : env'.helpText = env.helpText)
    (hv : opts'.version = opts.version) (hh : opts'.help = opts.help)
    (hr : opts'.remote = opts.remote) (hearly : ∀ target, ¬ opts.IsLocal target)
    (hearly' : ∀ target, ¬ opts'.IsLocal target) (steps : Nat) {s : σ} {t : τ} (hs : R s t) :
    Dispatches env opts (calls svc env opts (steps + 3) s) (run svc env opts (steps + 3) s).1 ∧
    calls svc' env' opts' (steps + 3) t = calls svc env opts (steps + 3) s ∧
    (run svc' env' opts' (steps + 3) t).1 = (run svc env opts (steps + 3) s).1 ∧
    R (run svc env opts (steps + 3) s).2 (run svc' env' opts' (steps + 3) t).2 := by
  obtain ⟨errand, he⟩ := errand?_isSome env hearly
  obtain ⟨errand', he'⟩ := errand?_isSome env' hearly'
  obtain rfl := errand?_congr hversion hhelp hv hh hr he he'
  have hstart : Services.Share.Logged R (s, []) (t, []) := ⟨hs, rfl⟩
  have hpair := (h.record_together (.entered State.modeSelect.name)).bind
    (fun _ ↦ h.act_together errand') _ _ hstart
  rw [← run_errand svc.watched he steps, ← run_errand svc'.watched he' steps,
    run_watched svc env opts, run_watched svc' env' opts'] at hpair
  obtain ⟨hanswer, hrelated, hlog⟩ := hpair
  refine ⟨?_, hlog.symm, hanswer.symm, hrelated⟩
  obtain ⟨log, r, q, hact, hq, hdoes⟩ :=
    h.act_does errand' (p := ((svc.note (.entered State.modeSelect.name) s).2, [])) ⟨_, h.note _ hs⟩
  have hrun : run svc.watched env opts (steps + 3) (s, []) = (r, q) := by
    rw [run_errand svc.watched he steps]
    exact hact
  rw [run_watched, Prod.mk.injEq] at hrun
  obtain ⟨rfl, rfl⟩ := hrun
  obtain rfl : calls svc env opts (steps + 3) s = log := hq
  exact hdoes.dispatches he

end Session

namespace Rehearsal

/-- Stages with one history and one server, and with outputs that take everything. -/
structure Joined (s t : Stage) : Prop where
  left : s.room = none
  right : t.room = none
  marks : s.marks = t.marks
  refuse : s.refuse = t.refuse

theorem cast_shares (cwd cwd' : Except IoError Path) : (cast cwd).Share (cast cwd') Joined where
  connect endpoint s t h := by
    refine ⟨?_, h.left, h.right, congrArg (List.cons _) h.marks, h.refuse⟩
    change (if s.refuse then _ else _) = (if t.refuse then _ else _)
    rw [h.refuse]
  write bs s t h := by
    have hw : (cast cwd).write bs s = _ := Stage.write_unlimited bs h.left
    have hw' : (cast cwd').write bs t = _ := Stage.write_unlimited bs h.right
    rw [hw, hw']
    exact ⟨rfl, rfl, h.left, h.right, congrArg (List.cons _) h.marks, h.refuse⟩
  flush h := ⟨rfl, rfl, h⟩
  note _ _ _ h := ⟨h.left, h.right, h.marks, h.refuse⟩

end Rehearsal

/-- A server that refuses, asked for on two machines, on one of them together with a script. -/
theorem Session.early_modes_leave_scripts_alone_refused :
    let svc := Rehearsal.cast (.ok ⟨[Path.slash]⟩)
    let svc' := Rehearsal.cast (.error (.system .noEntry))
    let env' : Environment :=
      { Environment.bare with
        files := { Environment.bare.files with
          currentDir := .error (.system .noEntry), readText := fun _ ↦ .ok "quit\n" }
        rcPaths := [⟨[Path.slash]⟩] }
    let opts : Options := { remote := some ["far", "9000"] }
    let opts' : Options := { opts with rc := true, target := some "app", scriptArgs := ["-x"] }
    let s : Rehearsal.Stage := { refuse := true }
    let t : Rehearsal.Stage := { refuse := true, checks := [.failed 3 "bad"], consoles := .real [] true }
    Rehearsal.Joined s t ∧
      Dispatches .bare opts (calls svc .bare opts 4 s) (run svc .bare opts 4 s).1 ∧
      (run svc .bare opts 4 s).1 = .error (.connect ⟨"far", 9000⟩ .refused) ∧
      (run svc .bare opts 4 s).2.shownBytes =
        Utf8.encode "Connecting to stepline server far:9000...\n" ∧
      calls svc' env' opts' 4 t = calls svc .bare opts 4 s ∧
      (run svc' env' opts' 4 t).1 = (run svc .bare opts 4 s).1 ∧
      Rehearsal.Joined (run svc .bare opts 4 s).2 (run svc' env' opts' 4 t).2 := by
  intro svc svc' env' opts opts' s t
  have hs : Rehearsal.Joined s t := ⟨rfl, rfl, rfl, rfl⟩
  have hearly : ∀ target, ¬ opts.IsLocal target := fun _ h ↦ nomatch h.2.2.1
  have hearly' : ∀ target, ¬ opts'.IsLocal target := fun _ h ↦ nomatch h.2.2.1
  obtain ⟨hd, hcalls, hanswer, hrelated⟩ := early_modes_leave_scripts_alone
    (Rehearsal.cast_shares _ _) .bare env' opts opts' rfl rfl rfl rfl rfl hearly hearly' 1 hs
  exact ⟨hs, hd, by rfl, by decide +kernel, hcalls, hanswer, hrelated⟩

end DebugSession
