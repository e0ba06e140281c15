import DebugSession.Proofs.Remote.Relay

/-!
A remote session does not see how lines are ended. Only what is left of a line without the carriage returns
and newlines at its end counts, for the lines of the server and for those of the user.
-/

namespace DebugSession.Remote

section Bare

variable {line : Bytes}

theorem exists_encode_of_lineEnds {bs : Bytes} (h : ∀ b ∈ bs, Text.isLineEndOctet b) :
    ∃ text, Utf8.encode text = bs := by
  induction bs with
  | nil => exact ⟨"", rfl⟩
  | cons b bs ih =>
    obtain ⟨rest, hrest⟩ := ih fun x hx ↦ h x (List.mem_cons_of_mem b hx)
    have hb := h b List.mem_cons_self
    simp only [Text.isLineEndOctet, decide_eq_true_eq] at hb
    obtain rfl | rfl := hb
    · exact ⟨"\r" ++ rest, by rw [Utf8.encode_append, hrest]; rfl⟩
    · exact ⟨"\n" ++ rest, by rw [Utf8.encode_append, hrest]; rfl⟩

theorem isSome_decode?_bare (line : Bytes) :
    (Utf8.decode? (bare line)).isSome = (Utf8.decode? line).isSome := by
  rw [Bool.eq_iff_iff, Option.isSome_iff_exists, Option.isSome_iff_exists]
  simp only [Utf8.decode?_eq_some_iff]
  constructor
  · rintro ⟨text, htext⟩
    obtain ⟨tail, hline, htail⟩ := Text.exists_trimEnd_append Text.isLineEndOctet line
    obtain ⟨ends, hends⟩ := exists_encode_of_lineEnds htail
    refine ⟨text ++ ends, ?_⟩
    rw [Utf8.encode_append, ← htext, hends]
    exact hline
  · rintro ⟨text, rfl⟩
    exact ⟨Text.chomp text, (Utf8.encode_chomp text).symm⟩

theorem bare_append_bare (bs line : Bytes) : bare (bs ++ bare line) = bare (bs ++ line) :=
  Text.trimEnd_append_trimEnd bs line

theorem bare_bare (line : Bytes) : bare (bare line) = bare line := bare_append_bare [] line

theorem question?_bare (line : Bytes) : question? (bare line) = question? line := by
  rw [question?, question?, bare_bare]

theorem asks_bare (line : Bytes) : asks (bare line) = asks line := by
  rw [asks, asks, question?_bare]

theorem display_bare (line : Bytes) : display (bare line) = display line := by
  rw [display, display, question?_bare, bare_bare]

theorem answer_bare (line : Bytes) : answer (bare line) = answer line := by
  rw [answer, answer, bare_bare]

/-- The bare lines make the session that the lines themselves make. -/
theorem relay_bare (server user pieces : List Bytes) :
    relay (server.map bare) (user.map bare) ⟨pieces, none⟩ =
      { relay server user ⟨pieces, none⟩ with
        rest := (relay server user ⟨pieces, none⟩).rest.map bare } := by
  have hshow (line : Bytes) (pieces : List Bytes) :
      Sink.write (display (bare line)) ⟨pieces, none⟩ =
        (.ok (), ⟨display line :: pieces, none⟩) := by
    rw [display_bare, Sink.write_of_unlimited]
  have hread {line : Bytes} (h : (Utf8.decode? line).isSome) :
      (Utf8.decode? (bare line)).isSome := (isSome_decode?_bare line).trans h
  have hgarbled {line : Bytes} (h : Utf8.decode? line = none) :
      Utf8.decode? (bare line) = none := by
    have hnone := isSome_decode?_bare line
    simpa [h] using hnone
  have hasks {line : Bytes} {b : Bool} (h : asks line = b) : asks (bare line) = b :=
    (asks_bare line).trans h
  induction server, user using relay_induction generalizing pieces with
  | served user => rfl
  | garbled line server user hd =>
    rw [List.map_cons, relay_garbled hd, relay_garbled (hgarbled hd)]
  | tell line server user hd hl ih =>
    rw [List.map_cons, relay_tell hd (Sink.write_of_unlimited _ pieces) hl,
      relay_tell (hread hd) (hshow line pieces) (hasks hl), ih]
  | unanswered line server hd hl =>
    rw [List.map_cons, List.map_nil, relay_unanswered hd (Sink.write_of_unlimited _ pieces) hl,
      relay_unanswered (hread hd) (hshow line pieces) (hasks hl)]
    rfl
  | garbledAnswer line server reply user hd hl hr =>
    rw [List.map_cons, List.map_cons, relay_garbledAnswer hd (Sink.write_of_unlimited _ pieces) hl hr,
      relay_garbledAnswer (hread hd) (hshow line pieces) (hasks hl) (hgarbled hr)]
  | ask line server reply user hd hl hr ih =>
    rw [List.map_cons, List.map_cons, relay_ask hd (Sink.write_of_unlimited _ pieces) hl hr,
      relay_ask (hread hd) (hshow line pieces) (hasks hl) (hread hr), answer_bare, ih]
    rfl

end Bare

/-- The octets with `pad i` carriage returns put in front of newline number `i`. -/
def padded : (pad : Nat → Nat) → Bytes → Bytes
  | _, [] => []
  | pad, b :: bs =>
    if b = 0x0A then List.replicate (pad 0) 0x0D ++ b :: padded (fun i ↦ pad (i + 1)) bs
    else b :: padded pad bs

theorem map_bare_leadWith (bs : Bytes) (lines : List Bytes) :
    (Text.leadWith bs lines).map bare = (Text.leadWith bs (lines.map bare)).map bare := by
  cases lines with
  | nil => rfl
  | cons line lines =>
    simp only [Text.leadWith, List.map_cons, bare_append_bare, List.map_map, List.cons.injEq, true_and]
    exact (List.map_congr_left fun line _ ↦ bare_bare line).symm

theorem map_bare_padded (pad : Nat → Nat) (bs : Bytes) :
    (Text.cutAfter (· = 0x0A) (padded pad bs)).map bare =
      (Text.cutAfter (· = 0x0A) bs).map bare := by
  induction bs generalizing pad with
  | nil => rfl
  | cons b bs ih =>
    rw [padded]
    split
    next hb =>
      have hreturns : ∀ x ∈ List.replicate (pad 0) (0x0D : UInt8), decide (x = 0x0A) = false := by
        intro x hx
        rw [List.eq_of_mem_replicate hx]
        rfl
      have hends : ∀ x ∈ List.replicate (pad 0) 0x0D ++ [b], Text.isLineEndOctet x := by
        intro x hx
        simp only [List.mem_append, List.mem_replicate, List.mem_singleton] at hx
        obtain ⟨-, rfl⟩ | rfl := hx
        · rfl
        · rw [hb]
          rfl
      -- The carriage returns go into the piece that this newline ends, and that piece is bare without them.
      have hempty : bare (List.replicate (pad 0) 0x0D ++ [b]) = bare [b] := by
        have hline := Text.trimEnd_append_junk hends []
        have hnewline := Text.trimEnd_append_junk (fun x hx ↦ hends x (List.mem_append_right _ hx)) []
        exact hline.trans hnewline.symm
      have hcut : Text.cutAfter (· = 0x0A) (b :: bs) = [b] :: Text.cutAfter (· = 0x0A) bs :=
        Text.cutAfter_cons_mark (by simpa using hb) bs
      rw [Text.cutAfter_append_cons hreturns (by simpa using hb), hcut, List.map_cons,
        List.map_cons, hempty, ih]
    next hb =>
      -- The piece behind `b` may be bared before or after `b` is put in front of it.
      have hcut (bs : Bytes) : Text.cutAfter (· = 0x0A) (b :: bs) =
          Text.leadWith [b] (Text.cutAfter (· = 0x0A) bs) :=
        Text.cutAfter_cons (by simpa using hb) bs
      rw [hcut, hcut, map_bare_leadWith, ih, ← map_bare_leadWith]

/-- Carriage returns in front of newlines, be it in what the server sends or in what the user types, change
nothing that either of them sees. -/
theorem relay_padded (pad pad' : Nat → Nat) (server user : Bytes) (pieces : List Bytes) :
    let x := relay (Text.cutAfter (· = 0x0A) server) (Text.cutAfter (· = 0x0A) user) ⟨pieces, none⟩
    let x' := relay (Text.cutAfter (· = 0x0A) (padded pad server))
      (Text.cutAfter (· = 0x0A) (padded pad' user)) ⟨pieces, none⟩
    x'.result = x.result ∧ x'.sink = x.sink ∧ x'.sent = x.sent := by
  intro x x'
  have h := relay_bare (Text.cutAfter (· = 0x0A) server) (Text.cutAfter (· = 0x0A) user) pieces
  have h' := relay_bare (Text.cutAfter (· = 0x0A) (padded pad server))
    (Text.cutAfter (· = 0x0A) (padded pad' user)) pieces
  rw [map_bare_padded, map_bare_padded, h] at h'
  simp only [Exchange.mk.injEq] at h'
  obtain ⟨hresult, hsink, hsent, -, -⟩ := h'
  exact ⟨hresult.symm, hsink.symm, hsent.symm⟩

/-- The second newline is left as it is. -/
example : padded (fun i ↦ if i = 1 then 0 else 2) (Utf8.encode "PROMPT \na\n\n") =
    Utf8.encode "PROMPT \r\r\na\n\r\r\n" := by decide +kernel

end DebugSession.Remote
