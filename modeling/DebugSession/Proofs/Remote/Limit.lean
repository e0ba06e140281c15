import DebugSession.Proofs.Remote.Relay

/-!
A remote session in front of an output that takes a number of octets and no more. What is sent to the server
then are the answers to the questions that were shown to their end, and no other.
-/

namespace DebugSession.Remote

section Questions

/-- Where the text of each question among `lines` ends, if they are shown behind `start` octets. -/
def questionEnds (start : Nat) : List Bytes → List Nat
  | [] => []
  | line :: lines =>
    let stop := start + (display line).length
    if asks line then stop :: questionEnds stop lines else questionEnds stop lines

/-- The answers to those questions that end within the first `n` octets. -/
def answersWithin (n : Nat) (ends : List Nat) (answers : List Bytes) : List Bytes :=
  ((ends.zip answers).filter fun pair ↦ pair.1 ≤ n).map Prod.snd

variable {line : Bytes} {lines : List Bytes} {n start stop : Nat} {ends : List Nat}

theorem questionEnds_ask (h : asks line) : questionEnds start (line :: lines) =
    (start + (display line).length) :: questionEnds (start + (display line).length) lines := by
  simp [questionEnds, h]

theorem questionEnds_tell (h : asks line = false) : questionEnds start (line :: lines) =
    questionEnds (start + (display line).length) lines := by
  simp [questionEnds, h]

theorem le_of_mem_questionEnds (h : stop ∈ questionEnds start lines) : start ≤ stop := by
  induction lines generalizing start with
  | nil => cases h
  | cons line lines ih =>
    cases hl : asks line with
    | false =>
      rw [questionEnds_tell hl] at h
      exact Nat.le_trans (Nat.le_add_right _ _) (ih h)
    | true =>
      rw [questionEnds_ask hl, List.mem_cons] at h
      obtain rfl | h := h
      · exact Nat.le_add_right _ _
      · exact Nat.le_trans (Nat.le_add_right _ _) (ih h)

theorem lt_of_mem_questionEnds (h : stop ∈ questionEnds start (line :: lines)) :
    start + (display line).length ≤ stop := by
  cases hl : asks line with
  | false =>
    rw [questionEnds_tell hl] at h
    exact le_of_mem_questionEnds h
  | true =>
    rw [questionEnds_ask hl, List.mem_cons] at h
    obtain rfl | h := h
    · exact Nat.le_refl _
    · exact le_of_mem_questionEnds h

theorem length_questionEnds (start : Nat) (lines : List Bytes) :
    (questionEnds start lines).length = lines.countP asks := by
  induction lines generalizing start with
  | nil => rfl
  | cons line lines ih =>
    cases hl : asks line with
    | false => rw [questionEnds_tell hl, ih, List.countP_cons_of_neg (by simp [hl])]
    | true => rw [questionEnds_ask hl, List.length_cons, ih, List.countP_cons_of_pos hl]

theorem questionEnds_append (start : Nat) (lines more : List Bytes) :
    ∃ later, questionEnds start (lines ++ more) = questionEnds start lines ++ later := by
  induction lines generalizing start with
  | nil => exact ⟨_, rfl⟩
  | cons line lines ih =>
    obtain ⟨later, h⟩ := ih (start + (display line).length)
    refine ⟨later, ?_⟩
    rw [List.cons_append]
    cases hl : asks line with
    | false => rw [questionEnds_tell hl, questionEnds_tell hl, h]
    | true => rw [questionEnds_ask hl, questionEnds_ask hl, h, List.cons_append]

theorem answersWithin_eq_nil (h : ∀ stop ∈ ends, n < stop) (answers : List Bytes) :
    answersWithin n ends answers = [] := by
  rw [answersWithin, List.map_eq_nil_iff, List.filter_eq_nil_iff]
  intro pair hpair
  have hlate := h pair.1 (List.of_mem_zip hpair).1
  simpa using hlate

theorem answersWithin_append {answers : List Bytes} (h : answers.length ≤ ends.length)
    (later : List Nat) : answersWithin n (ends ++ later) answers = answersWithin n ends answers := by
  have hzip : (ends ++ later).zip answers = ends.zip answers := by
    have hlong := @List.zip_eq_zip_take_min _ _ (ends ++ later) answers
    have hshort := @List.zip_eq_zip_take_min _ _ ends answers
    rw [List.length_append, Nat.min_eq_right (Nat.le_trans h (Nat.le_add_right _ _)),
      List.take_append_of_le_length h] at hlong
    rw [hlong, hshort, Nat.min_eq_right h]
  rw [answersWithin, hzip, answersWithin]

end Questions

section Curbed

/-- From the lines `server` of the server on and behind the output `before`, `free` is what a session makes
if the output takes everything and `cut` what it makes if the output takes `n` octets. -/
structure Curbed (n : Nat) (before : Bytes) (server : List Bytes) (free cut : Exchange) : Prop where
  output : ∃ out, free.sink.bytes = before ++ out ∧
    (out.length ≤ n ∧ cut.result = free.result ∧ cut.sink.bytes = before ++ out ∧
        cut.sent = free.sent ∨
      n < out.length ∧ cut.result = .error (.io .sinkFull) ∧
        cut.sink.bytes = before ++ out.take n)
  sent_prefix : cut.sent <+: free.sent
  answered : ∀ start, cut.sent = answersWithin (start + n) (questionEnds start server) free.sent

variable {n : Nat} {before line : Bytes} {server user pieces : List Bytes} {free cut : Exchange}

/-- A session that ends behind the output `out` without an answer. -/
theorem Curbed.ended (out : Bytes) (hfit : out.length ≤ n) (hresult : cut.result = free.result)
    (hfree : free.sink.bytes = before ++ out) (hcut : cut.sink.bytes = before ++ out)
    (hsent : free.sent = []) (hsent' : cut.sent = []) : Curbed n before server free cut where
  output := ⟨out, hfree, .inl ⟨hfit, hresult, hcut, hsent'.trans hsent.symm⟩⟩
  sent_prefix := by rw [hsent']; exact List.nil_prefix
  answered start := by simp [hsent, hsent', answersWithin]

theorem Curbed.stopped {more : Bytes} (hover : n < (display line).length)
    (hresult : cut.result = .error (.io .sinkFull))
    (hfree : free.sink.bytes = before ++ display line ++ more)
    (hcut : cut.sink.bytes = before ++ (display line).take n) (hsent : cut.sent = []) :
    Curbed n before (line :: server) free cut where
  output := by
    refine ⟨display line ++ more, by rw [hfree, List.append_assoc], .inr ⟨?_, hresult, ?_⟩⟩
    · rw [List.length_append]
      omega
    · rw [hcut, List.take_append_of_le_length (Nat.le_of_lt hover)]
  sent_prefix := by rw [hsent]; exact List.nil_prefix
  answered start := by
    rw [hsent, answersWithin_eq_nil]
    intro stop hstop
    have hle := lt_of_mem_questionEnds hstop
    omega

variable (hfit : (display line).length ≤ n)
  (h : Curbed (n - (display line).length) (before ++ display line) server free cut)

include hfit h

theorem Curbed.output_cons : ∃ out, free.sink.bytes = before ++ out ∧
    (out.length ≤ n ∧ cut.result = free.result ∧ cut.sink.bytes = before ++ out ∧
        cut.sent = free.sent ∨
      n < out.length ∧ cut.result = .error (.io .sinkFull) ∧
        cut.sink.bytes = before ++ out.take n) := by
  obtain ⟨out, hfree, hout⟩ := h.output
  refine ⟨display line ++ out, by rw [hfree, List.append_assoc], ?_⟩
  rw [List.length_append]
  obtain ⟨hle, hresult, hcut, hsent⟩ | ⟨hover, hresult, hcut⟩ := hout
  · exact .inl ⟨by omega, hresult, by rw [hcut, List.append_assoc], hsent⟩
  · refine .inr ⟨by omega, hresult, ?_⟩
    rw [hcut, List.take_append, List.take_of_length_le hfit, List.append_assoc]

theorem Curbed.tell (hl : asks line = false) : Curbed n before (line :: server) free cut where
  output := h.output_cons hfit
  sent_prefix := h.sent_prefix
  answered start := by
    have hrest := h.answered (start + (display line).length)
    rwa [← questionEnds_tell hl, Nat.add_assoc, Nat.add_sub_cancel' hfit] at hrest

theorem Curbed.ask (hl : asks line) (bs : Bytes) :
    Curbed n before (line :: server) (free.after bs) (cut.after bs) where
  output := by
    obtain ⟨out, hfree, hout⟩ := h.output_cons hfit
    refine ⟨out, hfree, hout.imp (fun hfits ↦ ?_) id⟩
    obtain ⟨hle, hresult, hcut, hsent⟩ := hfits
    exact ⟨hle, hresult, hcut, congrArg (bs :: ·) hsent⟩
  sent_prefix := (List.prefix_cons_inj bs).mpr h.sent_prefix
  answered start := by
    have hrest := h.answered (start + (display line).length)
    rw [Nat.add_assoc, Nat.add_sub_cancel' hfit] at hrest
    have hshown : start + (display line).length ≤ start + n := Nat.add_le_add_left hfit start
    have hsent (x : Exchange) : (x.after bs).sent = bs :: x.sent := rfl
    rw [questionEnds_ask hl, hsent, hsent, hrest]
    simp [answersWithin, hshown]

end Curbed

section Relay

variable {n : Nat} {line : Bytes} {server user pieces : List Bytes} {free : Exchange}

/-- A line that can be read and that is shown if there is room for it. -/
theorem curbed_of_shown {before more : Bytes} (hbefore : before = Sink.bytes ⟨pieces, none⟩)
    (hd : (Utf8.decode? line).isSome) (hfree : free.sink.bytes = before ++ display line ++ more)
    (hfits : (display line).length ≤ n →
      Curbed n before (line :: server) free (relay (line :: server) user ⟨pieces, some n⟩)) :
    Curbed n before (line :: server) free (relay (line :: server) user ⟨pieces, some n⟩) := by
  by_cases hfit : (display line).length ≤ n
  · exact hfits hfit
  · have hover := Nat.lt_of_not_le hfit
    rw [relay_unshown hd (Sink.write_of_overflows hover pieces)]
    refine .stopped hover rfl hfree ?_ rfl
    rw [hbefore, Sink.bytes_cons]

theorem relay_curbed (server user pieces : List Bytes) (n : Nat) :
    Curbed n (Sink.bytes ⟨pieces, none⟩) server (relay server user ⟨pieces, none⟩)
      (relay server user ⟨pieces, some n⟩) := by
  -- The limit is part of the induction: behind a line that fits, the rest has that much less room.
  induction server, user using relay_induction generalizing pieces n with
  | served user =>
    exact .ended [] (Nat.zero_le n) rfl (List.append_nil _).symm (List.append_nil _).symm rfl rfl
  | garbled line server user hd =>
    rw [relay_garbled hd, relay_garbled hd]
    exact .ended [] (Nat.zero_le n) rfl (List.append_nil _).symm (List.append_nil _).symm rfl rfl
  | tell line server user hd hl ih =>
    rw [relay_tell hd (Sink.write_of_unlimited _ pieces) hl]
    have hrest := fun m ↦ Sink.bytes_cons _ pieces none ▸ ih (display line :: pieces) m
    obtain ⟨more, hfree, -⟩ := (hrest 0).output
    refine curbed_of_shown rfl hd hfree fun hfit ↦ ?_
    rw [relay_tell hd (Sink.write_of_fits hfit pieces) hl]
    exact (hrest _).tell hfit hl
  | unanswered line server hd hl =>
    rw [relay_unanswered hd (Sink.write_of_unlimited _ pieces) hl]
    have hfree := Sink.bytes_cons (display line) pieces none
    refine curbed_of_shown rfl hd (by rw [List.append_nil]; exact hfree) fun hfit ↦ ?_
    rw [relay_unanswered hd (Sink.write_of_fits hfit pieces) hl]
    exact .ended _ hfit rfl hfree hfree rfl rfl
  | garbledAnswer line server reply user hd hl hr =>
    rw [relay_garbledAnswer hd (Sink.write_of_unlimited _ pieces) hl hr]
    have hfree := Sink.bytes_cons (display line) pieces none
    refine curbed_of_shown rfl hd (by rw [List.append_nil]; exact hfree) fun hfit ↦ ?_
    rw [relay_garbledAnswer hd (Sink.write_of_fits hfit pieces) hl hr]
    exact .ended _ hfit rfl hfree hfree rfl rfl
  | ask line server reply user hd hl hr ih =>
    rw [relay_ask hd (Sink.write_of_unlimited _ pieces) hl hr]
    have hrest := fun m ↦ Sink.bytes_cons _ pieces none ▸ ih (display line :: pieces) m
    obtain ⟨more, hfree, -⟩ := (hrest 0).output
    refine curbed_of_shown rfl hd hfree fun hfit ↦ ?_
    rw [relay_ask hd (Sink.write_of_fits hfit pieces) hl hr]
    exact (hrest _).ask hfit hl (answer reply)

theorem Course.length_given {server user seen unread given left : List Bytes} {before : Bytes}
    {x : Exchange} (h : Course server user before x seen unread given left) :
    given.length ≤ seen.countP asks := by
  cases h.ending with
  | served hcount => exact Nat.le_of_eq hcount.symm
  | unanswered hcount | garbledAnswer hcount =>
    rw [← hcount, List.countP_append]
    exact Nat.le_add_right _ _
  | garbled hcount => exact Nat.le_of_eq hcount.symm

end Relay

/-- A session on an output for `n` octets. If it would show no more than that, the limit changes nothing;
else it ends with the fault of the output and shows the first `n` octets. In both cases the server gets the
answers to those questions whose text ends within `n` octets. -/
theorem limit_keeps_shown_answers (server user : Bytes) (n : Nat) :
    let lines := Text.cutAfter (· = 0x0A)
    let free := relay (lines server) (lines user) {}
    let cut := relay (lines server) (lines user) { room := some n }
    (free.sink.bytes.length ≤ n → cut.result = free.result ∧
      cut.sink.bytes = free.sink.bytes ∧ cut.sent = free.sent) ∧
    (n < free.sink.bytes.length → cut.result = .error (.io .sinkFull) ∧
      cut.sink.bytes = free.sink.bytes.take n) ∧
    cut.sent.flatten <+: free.sent.flatten ∧
    ∃ seen unread given left, Course (lines server) (lines user) [] free seen unread given left ∧
      cut.sent = answersWithin n (questionEnds 0 seen) free.sent := by
  intro lines free cut
  have hcurbed : Curbed n [] (lines server) free cut := relay_curbed (lines server) (lines user) [] n
  obtain ⟨out, hfree, hout⟩ := hcurbed.output
  obtain ⟨more, hmore⟩ := hcurbed.sent_prefix
  rw [List.nil_append] at hfree
  rw [hfree]
  refine ⟨?_, ?_, ⟨more.flatten, by rw [← List.flatten_append, hmore]⟩, ?_⟩
  · intro hle
    obtain ⟨-, hresult, hcut, hsent⟩ | ⟨hover, -⟩ := hout
    · exact ⟨hresult, hcut, hsent⟩
    · omega
  · intro hover
    obtain ⟨hle, -⟩ | ⟨-, hresult, hcut⟩ := hout
    · omega
    · exact ⟨hresult, hcut⟩
  · obtain ⟨seen, unread, given, left, hcourse⟩ := relay_course (lines server) (lines user) []
    refine ⟨seen, unread, given, left, hcourse, ?_⟩
    have hlength : free.sent.length ≤ (questionEnds 0 seen).length := by
      rw [hcourse.sent, List.length_map, length_questionEnds]
      exact hcourse.length_given
    obtain ⟨later, hends⟩ := questionEnds_append 0 seen unread
    have hanswered := hcurbed.answered 0
    rwa [hcourse.server_eq, hends, Nat.zero_add, answersWithin_append hlength] at hanswered

/-- The output ends within the second question, which gets no answer; the first one has no text. -/
example :
    let x := relay (Text.cutAfter (· = 0x0A) (Utf8.encode "hi\nPROMPT \nCONFIRM ok?\nbye\n"))
      (Text.cutAfter (· = 0x0A) (Utf8.encode "a\nb\n")) { room := some 5 }
    x.sink.bytes = Utf8.encode "hi\nok" ∧ x.sent = [Utf8.encode "a\n"] := by decide +kernel

end DebugSession.Remote
