import DebugSession.Proofs.Console.Dialogue

/-!
A console in front of an output that takes a number of octets and no more. As long as they suffice it
does what it would do anyway; where they end it stops, and nothing is shown behind that place.
-/

namespace DebugSession.Console

def Screen.limit (s : Screen) (n : Nat) : Screen := { s with sink := { s.sink with room := some n } }

/-- What a part of a dialogue leaves. -/
class Outcome (τ : Type) where
  screen : τ → Screen
  withScreen : τ → Screen → τ
  /-- It failed because the output was full. -/
  Stopped : τ → Prop

open Outcome

instance : Outcome (Except Fault Unit × Screen) where
  screen x := x.2
  withScreen x s := (x.1, s)
  Stopped x := x.1 = .error (.io .sinkFull)

instance : Outcome Turn where
  screen t := t.screen
  withScreen t s := { t with screen := s }
  Stopped t := t.result = .error (.io .sinkFull)

instance : Outcome Close where
  screen c := c.screen
  withScreen c s := { c with screen := s }
  Stopped c := c.result = .error (.io .sinkFull)

variable {τ τ' : Type} [Outcome τ] [Outcome τ'] {n : Nat} {s : Screen}

/-- From the screen `s`, `free` is left by an output that takes everything and `cut` by one that takes
`n` octets. -/
def Limited (n : Nat) (s : Screen) (free cut : τ) : Prop :=
  (screen free).sink.room = none ∧ ∃ out, (screen free).sink.bytes = s.sink.bytes ++ out ∧
    (out.length ≤ n ∧ cut = withScreen free ((screen free).limit (n - out.length)) ∨
      n < out.length ∧ Stopped cut ∧
        (screen cut).sink.bytes = s.sink.bytes ++ out.take n)

namespace Limited

theorem silent (x : τ) (h : s.sink.room = none) (hx : screen x = s) :
    Limited n s x (withScreen x (s.limit n)) :=
  ⟨by rw [hx, h], [], by rw [hx, List.append_nil], .inl ⟨Nat.zero_le n, by rw [hx]; rfl⟩⟩

/-- Two parts of a dialogue. The second goes on with what the first one leaves, as `rest` says for every
room that is left, and does nothing if the first one was stopped. -/
theorem bind {free cut : τ} {free' cut' : τ'} (rest : Nat → τ') (h : Limited n s free cut)
    (hrest : ∀ m, Limited m (screen free) free' (rest m))
    (hfit : ∀ m, cut = withScreen free ((screen free).limit m) → cut' = rest m)
    (hstop : Stopped cut → Stopped cut' ∧ screen cut' = screen cut) : Limited n s free' cut' := by
  obtain ⟨-, out, hout, ⟨hle, hcut⟩ | ⟨hover, hstopped, hcut⟩⟩ := h
  · obtain ⟨hroom, more, hmore, hend⟩ := hrest (n - out.length)
    refine ⟨hroom, out ++ more, by rw [hmore, hout, List.append_assoc], ?_⟩
    rw [hfit _ hcut, List.length_append]
    obtain ⟨hle', he⟩ | ⟨hover, hstopped, hcut⟩ := hend
    · refine .inl ⟨by omega, ?_⟩
      rw [he, Nat.sub_sub]
    · refine .inr ⟨by omega, hstopped, ?_⟩
      rw [hcut, hout, List.take_append, List.take_of_length_le hle, List.append_assoc]
  · -- The second part is not reached, so that any room for it tells what it would show.
    obtain ⟨hroom, more, hmore, -⟩ := hrest 0
    obtain ⟨hstopped, hsame⟩ := hstop hstopped
    refine ⟨hroom, out ++ more, by rw [hmore, hout, List.append_assoc],
      .inr ⟨by rw [List.length_append]; omega, hstopped, ?_⟩⟩
    rw [hsame, hcut, List.take_append_of_le_length (by omega)]

end Limited

theorem show_limited (h : s.sink.room = none) (p : Piece) :
    Limited n s (s.show p) ((s.limit n).show p) := by
  obtain ⟨⟨pieces, room⟩, color, notes⟩ := s
  obtain rfl : room = none := h
  generalize hbs : Utf8.encode (p.text color) = bs
  have hfree : Screen.show ⟨⟨pieces, none⟩, color, notes⟩ p =
      (.ok (), ⟨⟨bs :: pieces, none⟩, color, notes⟩) := by
    rw [← hbs]
    rfl
  have hcut : Screen.show ⟨⟨pieces, some n⟩, color, notes⟩ p =
      if bs.length ≤ n then (.ok (), ⟨⟨bs :: pieces, some (n - bs.length)⟩, color, notes⟩)
      else (.error (.io .sinkFull), ⟨⟨bs.take n :: pieces, some 0⟩, color, notes⟩) := by
    simp only [Screen.show, Sink.writeText, Sink.write, hbs]
    split <;> rfl
  rw [hfree, Screen.limit, hcut]
  refine ⟨rfl, bs, Sink.bytes_cons bs pieces none, ?_⟩
  split
  next hfit => exact .inl ⟨hfit, rfl⟩
  next hover =>
    exact .inr ⟨Nat.lt_of_not_le hover, rfl, Sink.bytes_cons (bs.take n) pieces (some 0)⟩

theorem eq_of_stopped {x : Except Fault Unit × Screen} (h : Stopped x) :
    x = (.error (.io .sinkFull), screen x) :=
  Prod.ext h rfl

theorem showAll_limited (h : s.sink.room = none) (ps : List Piece) :
    Limited n s (s.showAll ps) ((s.limit n).showAll ps) := by
  induction ps generalizing s n with
  | nil => exact .silent ((.ok (), s) : Except Fault Unit × Screen) h rfl
  | cons p ps ih =>
    obtain ⟨t, ht, hroom⟩ := Screen.show_unlimited h p
    have hshow := show_limited (n := n) h p
    have hfree : s.showAll (p :: ps) = t.showAll ps := by rw [Screen.showAll, ht]
    rw [ht] at hshow
    rw [hfree]
    refine hshow.bind (fun m ↦ (t.limit m).showAll ps) (fun m ↦ ih hroom) (fun m hm ↦ ?_) fun hs ↦ ?_
    · rw [Screen.showAll, hm]
      rfl
    · rw [Screen.showAll, eq_of_stopped hs]
      exact ⟨rfl, rfl⟩

variable {cwd : Except IoError Path} {ctx : Context}

def Screen.noted (s : Screen) (es : List Event) : Screen :=
  { s with notes := es.reverse ++ s.notes }

theorem turn_shown {line : String} {reply : Reply} {t : Screen}
    (hp : (Command.ofLine line).perform cwd ctx = .ok reply)
    (h : (s.noted reply.events).showAll reply.pieces = (.ok (), t)) :
    turn cwd ctx line s = ⟨.ok reply.signal, reply.context, t⟩ := by
  rw [Screen.noted] at h
  simp only [turn, hp, h]

theorem turn_unshown {line : String} {reply : Reply} {e : Fault} {t : Screen}
    (hp : (Command.ofLine line).perform cwd ctx = .ok reply)
    (h : (s.noted reply.events).showAll reply.pieces = (.error e, t)) :
    turn cwd ctx line s = ⟨.error e, reply.context, t⟩ := by
  rw [Screen.noted] at h
  simp only [turn, hp, h]

theorem turn_limited (h : s.sink.room = none) (line : String) :
    Limited n s (turn cwd ctx line s) (turn cwd ctx line (s.limit n)) := by
  cases hp : (Command.ofLine line).perform cwd ctx with
  | error e =>
    have he (s : Screen) : turn cwd ctx line s = ⟨.error e, ctx, s⟩ := by simp only [turn, hp]
    rw [he, he]
    exact .silent (⟨.error e, ctx, s⟩ : Turn) h rfl
  | ok reply =>
    have hnoted : (s.noted reply.events).sink.room = none := h
    obtain ⟨t, ht, hroom⟩ := Screen.showAll_unlimited hnoted reply.pieces
    have hshow := showAll_limited (n := n) hnoted reply.pieces
    rw [ht] at hshow
    rw [turn_shown hp ht]
    refine hshow.bind (fun m ↦ (⟨.ok reply.signal, reply.context, t.limit m⟩ : Turn))
      (fun m ↦ .silent (⟨.ok reply.signal, reply.context, t⟩ : Turn) hroom rfl)
      (fun m hm ↦ turn_shown hp hm) fun hs ↦ ?_
    have he : ((s.limit n).noted reply.events).showAll reply.pieces = _ := eq_of_stopped hs
    rw [turn_unshown hp he]
    exact ⟨rfl, rfl⟩

theorem execute_limited (h : s.sink.room = none) (line : String) (rest : List Bytes) :
    Limited n s (execute cwd ctx line s rest) (execute cwd ctx line (s.limit n) rest) := by
  have hturn : Limited n s (turn cwd ctx line s) _ := turn_limited h line
  refine hturn.bind
    (fun m ↦ withScreen (execute cwd ctx line s rest) ((turn cwd ctx line s).screen.limit m))
    (fun m ↦ .silent _ hturn.1 rfl) (fun m hm ↦ ?_) fun hs ↦ ?_
  · rw [execute, hm]
    rfl
  · have hr : (turn cwd ctx line (s.limit n)).result = .error (.io .sinkFull) := hs
    refine ⟨?_, rfl⟩
    change (turn cwd ctx line (s.limit n)).result.map _ = _
    rw [hr]
    rfl

/-- How a command session goes on behind a line. -/
def proceed (cwd : Except IoError Path) (lines : List Bytes) : Turn → Close
  | ⟨.error e, ctx, s⟩ => ⟨.error e, ctx, s, lines⟩
  | ⟨.ok (some signal), ctx, s⟩ => ⟨.ok signal, ctx, s, lines⟩
  | ⟨.ok none, ctx, s⟩ => converse cwd ctx s lines

/-- The rest of a command session behind the prompt for `line`. -/
def answered (cwd : Except IoError Path) (ctx : Context) (line : Bytes) (lines : List Bytes)
    (s : Screen) : Close :=
  match Utf8.decode? line with
  | none => ⟨.error (.io .notUtf8), ctx, s, lines⟩
  | some text => proceed cwd lines (turn cwd ctx text s)

theorem converse_prompted {line : Bytes} {lines : List Bytes} {t : Screen}
    (h : s.show .prompt = (.ok (), t)) :
    converse cwd ctx s (line :: lines) = answered cwd ctx line lines t := by
  rw [converse, h, answered]
  dsimp only
  cases Utf8.decode? line with
  | none => rfl
  | some text =>
    dsimp only
    obtain ⟨_ | _ | _, _, _⟩ := turn cwd ctx text t <;> rfl

theorem proceed_limited {lines : List Bytes} {free cut : Turn}
    (ih : ∀ {n s ctx}, s.sink.room = none →
      Limited n s (converse cwd ctx s lines) (converse cwd ctx (s.limit n) lines))
    (h : Limited n s free cut) : Limited n s (proceed cwd lines free) (proceed cwd lines cut) := by
  have hroom : free.screen.sink.room = none := h.1
  refine h.bind (fun m ↦ proceed cwd lines { free with screen := free.screen.limit m })
    (fun m ↦ ?_) (fun m hm ↦ by rw [hm]; rfl) fun hs ↦ ?_
  · obtain ⟨e | signal | signal, left, t⟩ := free
    · exact .silent (⟨.error e, left, t, lines⟩ : Close) hroom rfl
    · exact ih hroom
    · exact .silent (⟨.ok signal, left, t, lines⟩ : Close) hroom rfl
  · obtain ⟨r, left, u⟩ := cut
    obtain rfl : r = .error (.io .sinkFull) := hs
    exact ⟨rfl, rfl⟩

theorem answered_limited {lines : List Bytes}
    (ih : ∀ {n s ctx}, s.sink.room = none →
      Limited n s (converse cwd ctx s lines) (converse cwd ctx (s.limit n) lines))
    (h : s.sink.room = none) (line : Bytes) :
    Limited n s (answered cwd ctx line lines s) (answered cwd ctx line lines (s.limit n)) := by
  rw [answered, answered]
  cases Utf8.decode? line with
  | none => exact .silent (⟨.error (.io .notUtf8), ctx, s, lines⟩ : Close) h rfl
  | some text => exact proceed_limited ih (turn_limited h text)

theorem converse_limited (h : s.sink.room = none) (lines : List Bytes) :
    Limited n s (converse cwd ctx s lines) (converse cwd ctx (s.limit n) lines) := by
  induction lines generalizing s n ctx with
  | nil =>
    obtain ⟨t, ht, hroom⟩ := Screen.showAll_unlimited h [.prompt, .plain "\n"]
    have hshow := showAll_limited (n := n) h [.prompt, .plain "\n"]
    have hfree : converse cwd ctx s [] = ⟨.ok .quit, ctx, t, []⟩ := by rw [converse, ht]
    rw [ht] at hshow
    rw [hfree]
    refine hshow.bind (fun m ↦ (⟨.ok .quit, ctx, t.limit m, []⟩ : Close))
      (fun m ↦ .silent (⟨.ok .quit, ctx, t, []⟩ : Close) hroom rfl) (fun m hm ↦ ?_) fun hs ↦ ?_
    · rw [converse, hm]
      rfl
    · rw [converse, eq_of_stopped hs]
      exact ⟨rfl, rfl⟩
  | cons line lines ih =>
    obtain ⟨t, ht, hroom⟩ := Screen.show_unlimited h .prompt
    have hshow := show_limited (n := n) h .prompt
    rw [ht] at hshow
    rw [converse_prompted ht]
    refine hshow.bind (fun m ↦ answered cwd ctx line lines (t.limit m))
      (fun m ↦ answered_limited ih hroom line) (fun m hm ↦ converse_prompted hm) fun hs ↦ ?_
    rw [converse, eq_of_stopped hs]
    exact ⟨rfl, rfl⟩

end DebugSession.Console
