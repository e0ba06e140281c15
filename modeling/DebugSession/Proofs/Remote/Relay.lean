import DebugSession.Proofs.Text.Lines
import DebugSession.Remote.Relay

/-!
A remote session by its octets: which lines of the server are shown and how, which lines of the user are
sent, and when it ends. Two streams are read at their own speeds, and `Course` keeps them in step.
-/

namespace DebugSession.Remote

section Octets

/-- A line without the carriage returns and newlines at its end. -/
def bare (line : Bytes) : Bytes := Text.trimEnd Text.isLineEndOctet line

/-- What a line of the server asks, if it asks. -/
def question? (line : Bytes) : Option Bytes :=
  askLeads.findSome? fun lead ↦
    if (Utf8.encode lead).isPrefixOf (bare line) then
      some ((bare line).drop (Utf8.encode lead).length) else none

def asks (line : Bytes) : Bool := (question? line).isSome

def display (line : Bytes) : Bytes := (question? line).getD (bare line ++ [0x0A])

def answer (line : Bytes) : Bytes := bare line ++ [0x0A]

theorem question?_encode (text : String) :
    question? (Utf8.encode text) =
      (askLeads.findSome? (Text.after? · (Text.chomp text))).map Utf8.encode := by
  have hlead (lead : String) (h : lead ∈ askLeads) : ∀ c ∈ lead.toList, c.val.toNat < 0x80 := by
    simp only [askLeads, List.mem_cons, List.not_mem_nil, or_false] at h
    obtain rfl | rfl := h <;> simp
  rw [List.map_findSome?, question?, bare, ← Utf8.encode_chomp]
  simp only [askLeads, List.findSome?_cons, Function.comp_apply, List.findSome?_nil]
  rw [Utf8.encode_after? (hlead "PROMPT " (by simp [askLeads])),
    Utf8.encode_after? (hlead "CONFIRM " (by simp [askLeads]))]

theorem answerText_octets (text : String) : answerText text = answer (Utf8.encode text) := by
  rw [answerText, answer, bare, Utf8.encode_chomp]

variable {text : String}

theorem asks_of_ask {rest : String} (h : Message.ofLine text = .ask rest) :
    asks (Utf8.encode text) = true := by
  rw [Message.ofLine] at h
  rw [asks, question?_encode]
  split at h
  next he => rw [he]; rfl
  next => cases h

theorem not_asks_of_tell {rest : String} (h : Message.ofLine text = .tell rest) :
    asks (Utf8.encode text) = false := by
  rw [Message.ofLine] at h
  rw [asks, question?_encode]
  split at h
  next => cases h
  next he => rw [he]; rfl

theorem encode_shown (text : String) :
    Utf8.encode (Message.ofLine text).shown = display (Utf8.encode text) := by
  rw [display, question?_encode, Message.ofLine, bare, ← Utf8.encode_chomp]
  split
  next he => rw [he]; rfl
  next he =>
    rw [he, Message.shown, Utf8.encode_append]
    rfl

end Octets

section Course

/-- How a session ends that has read the lines `seen` and `given` and has `unread` and `left` in front
of it. -/
inductive Ending (x : Exchange) : (seen unread given left : List Bytes) → Prop
  | served {seen given left : List Bytes} : seen.countP asks = given.length →
      x.result = .ok () → x.rest = left → x.events = [] → Ending x seen [] given left
  | unanswered {seen unread given : List Bytes} {line : Bytes} : seen.countP asks = given.length →
      asks line → x.result = .ok () → x.rest = [] → x.events = [.inputClosed] →
      Ending x (seen ++ [line]) unread given []
  | garbled {seen unread given left : List Bytes} {line : Bytes} :
      seen.countP asks = given.length → Utf8.decode? line = none →
      x.result = .error (.io .notUtf8) → x.rest = left → Ending x seen (line :: unread) given left
  | garbledAnswer {seen unread given left : List Bytes} {line reply : Bytes} :
      seen.countP asks = given.length → asks line → Utf8.decode? reply = none →
      x.result = .error (.io .notUtf8) → x.rest = left →
      Ending x (seen ++ [line]) unread given (reply :: left)

/-- What a session on `server` and `user` makes of them, where `before` was shown already. -/
structure Course (server user : List Bytes) (before : Bytes) (x : Exchange)
    (seen unread given left : List Bytes) : Prop where
  server_eq : server = seen ++ unread
  user_eq : user = given ++ left
  readable : ∀ line ∈ seen ++ given, (Utf8.decode? line).isSome
  output : x.sink.bytes = before ++ seen.flatMap display
  sent : x.sent = given.map answer
  ending : Ending x seen unread given left

variable {server user seen unread given left : List Bytes} {before line reply : Bytes} {x : Exchange}

theorem Ending.tell (h : Ending x seen unread given left) (hl : asks line = false) :
    Ending x (line :: seen) unread given left := by
  have hc (seen : List Bytes) : (line :: seen).countP asks = seen.countP asks :=
    List.countP_cons_of_neg (by simp [hl])
  cases h with
  | served h hr hs he => exact .served ((hc _).trans h) hr hs he
  | unanswered h hq hr hs he => exact .unanswered ((hc _).trans h) hq hr hs he
  | garbled h hd hr hs => exact .garbled ((hc _).trans h) hd hr hs
  | garbledAnswer h hq hd hr hs => exact .garbledAnswer ((hc _).trans h) hq hd hr hs

theorem Ending.ask (h : Ending x seen unread given left) (hl : asks line) (bs : Bytes) :
    Ending (x.after bs) (line :: seen) unread (reply :: given) left := by
  have hc (seen given : List Bytes) (h : seen.countP asks = given.length) :
      (line :: seen).countP asks = (reply :: given).length := by
    rw [List.countP_cons_of_pos hl, h, List.length_cons]
  cases h with
  | served h hr hs he => exact .served (hc _ _ h) hr hs he
  | unanswered h hq hr hs he => exact .unanswered (hc _ _ h) hq hr hs he
  | garbled h hd hr hs => exact .garbled (hc _ _ h) hd hr hs
  | garbledAnswer h hq hd hr hs => exact .garbledAnswer (hc _ _ h) hq hd hr hs

theorem Course.tell (h : Course server user (before ++ display line) x seen unread given left)
    (hd : (Utf8.decode? line).isSome) (hl : asks line = false) :
    Course (line :: server) user before x (line :: seen) unread given left where
  server_eq := by rw [h.server_eq, List.cons_append]
  user_eq := h.user_eq
  readable := by
    rw [List.cons_append, List.forall_mem_cons]
    exact ⟨hd, h.readable⟩
  output := by rw [h.output, List.flatMap_cons, List.append_assoc]
  sent := h.sent
  ending := h.ending.tell hl

theorem Course.ask (h : Course server user (before ++ display line) x seen unread given left)
    (hd : (Utf8.decode? line).isSome) (hl : asks line) (hr : (Utf8.decode? reply).isSome) :
    Course (line :: server) (reply :: user) before (x.after (answer reply))
      (line :: seen) unread (reply :: given) left where
  server_eq := by rw [h.server_eq, List.cons_append]
  user_eq := by rw [h.user_eq, List.cons_append]
  readable := by
    intro l hm
    simp only [List.cons_append, List.mem_cons, List.mem_append] at hm
    obtain rfl | hm | rfl | hm := hm
    · exact hd
    · exact h.readable l (List.mem_append_left _ hm)
    · exact hr
    · exact h.readable l (List.mem_append_right _ hm)
  output := by
    have ho : (x.after (answer reply)).sink = x.sink := rfl
    rw [ho, h.output, List.flatMap_cons, List.append_assoc]
  sent := by rw [List.map_cons, ← h.sent]; rfl
  ending := h.ending.ask hl _

end Course

section Relay

variable {server user pieces : List Bytes} {line reply : Bytes} {sink after : Sink} {e : IoError}

theorem relay_garbled (h : Utf8.decode? line = none) : relay (line :: server) user sink =
    { result := .error (.io .notUtf8), sink, rest := user } := by
  simp only [relay, h]

theorem relay_unshown (h : (Utf8.decode? line).isSome) (hw : sink.write (display line) = (.error e, after)) :
    relay (line :: server) user sink = { result := .error (.io e), sink := after, rest := user } := by
  obtain ⟨text, ht⟩ := Option.isSome_iff_exists.mp h
  obtain rfl := Utf8.encode_of_decode? ht
  rw [← encode_shown, ← Sink.writeText] at hw
  simp only [relay, ht, hw]

/-- How a session goes on behind a line that was shown. -/
theorem relay_shown (h : (Utf8.decode? line).isSome) (hw : sink.write (display line) = (.ok (), after)) :
    relay (line :: server) user sink =
      if asks line then
        match user with
        | [] => { result := .ok (), sink := after, rest := [], events := [.inputClosed] }
        | reply :: user =>
          match Utf8.decode? reply with
          | none => { result := .error (.io .notUtf8), sink := after, rest := user }
          | some _ => (relay server user after).after (answer reply)
      else relay server user after := by
  obtain ⟨text, ht⟩ := Option.isSome_iff_exists.mp h
  obtain rfl := Utf8.encode_of_decode? ht
  rw [← encode_shown, ← Sink.writeText] at hw
  simp only [relay, ht, hw]
  cases hm : Message.ofLine text with
  | tell rest => simp [not_asks_of_tell hm]
  | ask rest =>
    rw [if_pos (asks_of_ask hm)]
    cases user with
    | nil => rfl
    | cons reply user =>
      dsimp only
      cases hr : Utf8.decode? reply with
      | none => rfl
      | some said =>
        dsimp only
        rw [answerText_octets, Utf8.encode_of_decode? hr]

theorem relay_tell (h : (Utf8.decode? line).isSome) (hw : sink.write (display line) = (.ok (), after))
    (hl : asks line = false) : relay (line :: server) user sink = relay server user after := by
  simp [relay_shown h hw, hl]

theorem relay_unanswered (h : (Utf8.decode? line).isSome)
    (hw : sink.write (display line) = (.ok (), after)) (hl : asks line) :
    relay (line :: server) [] sink =
      { result := .ok (), sink := after, rest := [], events := [.inputClosed] } := by
  simp [relay_shown h hw, hl]

theorem relay_garbledAnswer (h : (Utf8.decode? line).isSome)
    (hw : sink.write (display line) = (.ok (), after)) (hl : asks line)
    (hr : Utf8.decode? reply = none) : relay (line :: server) (reply :: user) sink =
      { result := .error (.io .notUtf8), sink := after, rest := user } := by
  simp [relay_shown h hw, hl, hr]

theorem relay_ask (h : (Utf8.decode? line).isSome) (hw : sink.write (display line) = (.ok (), after))
    (hl : asks line) (hr : (Utf8.decode? reply).isSome) :
    relay (line :: server) (reply :: user) sink = (relay server user after).after (answer reply) := by
  obtain ⟨said, hs⟩ := Option.isSome_iff_exists.mp hr
  simp [relay_shown h hw, hl, hs]

/-- Induction along a session whose lines are all shown, with a case for each way in which it ends or goes
on. -/
theorem relay_induction {motive : List Bytes → List Bytes → Prop}
    (served : ∀ user, motive [] user)
    (garbled : ∀ line server user, Utf8.decode? line = none → motive (line :: server) user)
    (tell : ∀ line server user, (Utf8.decode? line).isSome → asks line = false →
      motive server user → motive (line :: server) user)
    (unanswered : ∀ line server, (Utf8.decode? line).isSome → asks line → motive (line :: server) [])
    (garbledAnswer : ∀ line server reply user, (Utf8.decode? line).isSome → asks line →
      Utf8.decode? reply = none → motive (line :: server) (reply :: user))
    (ask : ∀ line server reply user, (Utf8.decode? line).isSome → asks line →
      (Utf8.decode? reply).isSome → motive server user → motive (line :: server) (reply :: user))
    (server user : List Bytes) : motive server user := by
  induction server generalizing user with
  | nil => exact served user
  | cons line server ih =>
    cases hd : Utf8.decode? line with
    | none => exact garbled line server user hd
    | some text =>
      have hd : (Utf8.decode? line).isSome := by rw [hd]; rfl
      cases hl : asks line with
      | false => exact tell line server user hd hl (ih user)
      | true =>
        cases user with
        | nil => exact unanswered line server hd hl
        | cons reply user =>
          cases hr : Utf8.decode? reply with
          | none => exact garbledAnswer line server reply user hd hl hr
          | some said =>
            have hr : (Utf8.decode? reply).isSome := by rw [hr]; rfl
            exact ask line server reply user hd hl hr (ih user)

theorem relay_course (server user pieces : List Bytes) :
    ∃ seen unread given left, Course server user (Sink.bytes ⟨pieces, none⟩)
      (relay server user ⟨pieces, none⟩) seen unread given left := by
  -- The last line that a session shows is a question, and there is no answer to it.
  have hone {line : Bytes} (h : (Utf8.decode? line).isSome) (pieces : List Bytes) :
      (∀ l ∈ ([] ++ [line]) ++ [], (Utf8.decode? l).isSome) ∧
        Sink.bytes ⟨display line :: pieces, none⟩ =
          Sink.bytes ⟨pieces, none⟩ ++ ([] ++ [line]).flatMap display := by
    simpa [Sink.bytes_cons] using h
  induction server, user using relay_induction generalizing pieces with
  | served user =>
    exact ⟨[], [], [], user, rfl, rfl, nofun, by simp [relay], rfl, .served rfl rfl rfl rfl⟩
  | garbled line server user hd =>
    rw [relay_garbled hd]
    exact ⟨[], line :: server, [], user, rfl, rfl, nofun, by simp, rfl, .garbled rfl hd rfl rfl⟩
  | tell line server user hd hl ih =>
    rw [relay_tell hd (Sink.write_of_unlimited _ pieces) hl]
    obtain ⟨seen, unread, given, left, h⟩ := ih (display line :: pieces)
    exact ⟨line :: seen, unread, given, left, (Sink.bytes_cons _ pieces none ▸ h).tell hd hl⟩
  | unanswered line server hd hl =>
    rw [relay_unanswered hd (Sink.write_of_unlimited _ pieces) hl]
    exact ⟨[] ++ [line], server, [], [], rfl, rfl, (hone hd pieces).1, (hone hd pieces).2, rfl,
      .unanswered rfl hl rfl rfl rfl⟩
  | garbledAnswer line server reply user hd hl hr =>
    rw [relay_garbledAnswer hd (Sink.write_of_unlimited _ pieces) hl hr]
    exact ⟨[] ++ [line], server, [], reply :: user, rfl, rfl, (hone hd pieces).1, (hone hd pieces).2,
      rfl, .garbledAnswer rfl hl hr rfl rfl⟩
  | ask line server reply user hd hl hr ih =>
    rw [relay_ask hd (Sink.write_of_unlimited _ pieces) hl hr]
    obtain ⟨seen, unread, given, left, h⟩ := ih (display line :: pieces)
    exact ⟨line :: seen, unread, reply :: given, left, (Sink.bytes_cons _ pieces none ▸ h).ask hd hl hr⟩

end Relay

section Newlines

variable {bs line : Bytes}

theorem count_answer (h : line ∈ Text.cutAfter (· = 0x0A) bs) : (answer line).count 0x0A = 1 := by
  have hend : ∀ b : UInt8, decide (b = 0x0A) → Text.isLineEndOctet b := by
    intro b hb
    simp only [decide_eq_true_eq] at hb
    subst hb
    rfl
  have hbare : (bare line).count 0x0A = 0 := by
    refine List.count_eq_zero.mpr fun hm ↦ ?_
    have hno := Text.mem_trimEnd_of_cutAfter hend h hm
    cases hno
  rw [answer, List.count_append, hbare]
  rfl

theorem count_answers {given : List Bytes} (h : ∀ line ∈ given, line ∈ Text.cutAfter (· = 0x0A) bs) :
    (given.map answer).flatten.count 0x0A = given.length := by
  induction given with
  | nil => rfl
  | cons line given ih =>
    have hline := count_answer (h line List.mem_cons_self)
    have hrest := ih fun l hl ↦ h l (List.mem_cons_of_mem line hl)
    rw [List.map_cons, List.flatten_cons, List.count_append, hline, hrest, List.length_cons]
    omega

end Newlines

/-- Every session keeps to a course, whatever octets the server and the user send. The server gets a
newline for each line of the user that it asked for, and no other. -/
theorem relay_in_step (server user : Bytes) (pieces : List Bytes) :
    let x := relay (Text.cutAfter (· = 0x0A) server) (Text.cutAfter (· = 0x0A) user) ⟨pieces, none⟩
    ∃ seen unread given left,
      Course (Text.cutAfter (· = 0x0A) server) (Text.cutAfter (· = 0x0A) user)
        (Sink.bytes ⟨pieces, none⟩) x seen unread given left ∧
      x.sent.flatten.count 0x0A = given.length := by
  intro x
  obtain ⟨seen, unread, given, left, h⟩ := relay_course (Text.cutAfter (· = 0x0A) server)
    (Text.cutAfter (· = 0x0A) user) pieces
  have hgiven : ∀ line ∈ given, line ∈ Text.cutAfter (· = 0x0A) user := by
    intro line hl
    rw [h.user_eq]
    exact List.mem_append_left left hl
  refine ⟨seen, unread, given, left, h, ?_⟩
  rw [h.sent]
  exact count_answers hgiven

/-- The second question finds no answer, and what the server says after it is not read. -/
example :
    let x := relay (Text.cutAfter (· = 0x0A) (Utf8.encode "hi\r\nPROMPT a? \nCONFIRM b? \nbye"))
      (Text.cutAfter (· = 0x0A) (Utf8.encode "yes\r\n")) {}
    x.sink.bytes = Utf8.encode "hi\na? b? " ∧ x.sent = [Utf8.encode "yes\n"] := by decide +kernel

end DebugSession.Remote
