import DebugSession.Endpoint
import DebugSession.Proofs.Text.Decimal
import DebugSession.Proofs.Text.Trim
import Mathlib.Data.List.DropRight

/-!
Addresses as option values and as text. The values are held to a grammar, and an address is told by its
text, whatever its host is.
-/

namespace DebugSession.Endpoint

variable {text : String} {port : UInt16} {n : Nat} {cs : List Char} {c : Char}

section Grammar

/-- At most one plus and then decimal digits that stand for `n`, after any number of zeros. -/
def IsNumeral (cs : List Char) (n : Nat) : Prop :=
  ∃ sign digits, cs = sign ++ digits ∧ (sign = [] ∨ sign = ['+']) ∧
    digits ≠ [] ∧ (∀ d ∈ digits, d.isDigit) ∧ Decimal.number digits = n

/-- A numeral between blanks. -/
def Writes (text : String) (n : Nat) : Prop :=
  ∃ lead numeral tail, text.toList = lead ++ numeral ++ tail ∧ (∀ c ∈ lead, Text.isBlank c) ∧
    (∀ c ∈ tail, Text.isBlank c) ∧ IsNumeral numeral n

theorem not_isBlank_of_isDigit (h : c.isDigit) : Text.isBlank c = false := by
  have hrange : 48 ≤ c.toNat ∧ c.toNat ≤ 57 := by
    simpa [Char.isDigit, UInt32.le_iff_toNat_le] using h
  rw [← Bool.not_eq_true]
  intro hblank
  simp only [Text.isBlank, Bool.or_eq_true, Bool.and_eq_true, decide_eq_true_eq] at hblank
  omega

theorem IsNumeral.not_isBlank (h : IsNumeral cs n) (hc : c ∈ cs) : Text.isBlank c = false := by
  obtain ⟨sign, digits, rfl, hsign, -, hdigits, -⟩ := h
  obtain hm | hm := List.mem_append.mp hc
  · obtain rfl | rfl := hsign
    · cases hm
    · rw [List.mem_singleton.mp hm]
      decide
  · exact not_isBlank_of_isDigit (hdigits c hm)

/-- Without the plus in front, if there is one. -/
def unsigned : List Char → List Char
  | '+' :: ds => ds
  | ds => ds

theorem unsigned_eq_self (h : cs.head? ≠ some '+') : unsigned cs = cs := by
  rw [unsigned]
  rintro ds rfl
  exact h rfl

theorem isNumeral_iff : IsNumeral cs n ↔ Decimal.read? (unsigned cs) = some n := by
  rw [Decimal.read?_eq_some_iff]
  constructor
  · rintro ⟨sign, digits, rfl, rfl | rfl, hne, hdigits, hn⟩
    · have hplus : ([] ++ digits).head? ≠ some '+' := by
        intro hhead
        have hdigit := hdigits '+' (List.mem_of_mem_head? hhead)
        cases hdigit
      rw [unsigned_eq_self hplus]
      exact ⟨hne, hdigits, hn⟩
    · exact ⟨hne, hdigits, hn⟩
  · intro h
    by_cases hhead : cs.head? = some '+'
    · obtain ⟨ds, rfl⟩ := List.head?_eq_some_iff.mp hhead
      exact ⟨['+'], ds, rfl, .inr rfl, h⟩
    · rw [unsigned_eq_self hhead] at h
      exact ⟨[], cs, rfl, .inl rfl, h⟩

theorem writes_iff : Writes text n ↔ IsNumeral (Text.trim text).toList n := by
  rw [Text.trim, String.toList_ofList]
  constructor
  · rintro ⟨lead, numeral, tail, htext, hlead, htail, hnumeral⟩
    rw [htext, Text.trimBoth_append_junk htail, Text.trimBoth_junk_append hlead,
      Text.trimBoth_eq_self]
    · exact hnumeral
    · exact fun c hc ↦ hnumeral.not_isBlank (List.mem_of_mem_head? hc)
    · exact fun c hc ↦ hnumeral.not_isBlank (List.mem_of_mem_getLast? hc)
  · intro h
    obtain ⟨lead, tail, htext, hlead, htail⟩ := Text.exists_append_trimBoth Text.isBlank text.toList
    exact ⟨lead, _, tail, htext, hlead, htail, h⟩

theorem readPort?_eq (text : String) : readPort? text =
    (Decimal.read? (unsigned (Text.trim text).toList)).bind fun n ↦
      if n < UInt16.size then some (.ofNat n) else none := by
  unfold readPort?
  generalize (Text.trim text).toList = cs
  unfold unsigned
  dsimp only
  cases Decimal.read? _ <;> rfl

theorem readPort?_eq_some_iff : readPort? text = some port ↔ Writes text port.toNat := by
  rw [writes_iff, isNumeral_iff, readPort?_eq, Option.bind_eq_some_iff]
  constructor
  · rintro ⟨n, hread, hport⟩
    split at hport
    next hn =>
      cases hport
      rw [hread, UInt16.toNat_ofNat_of_lt' hn]
    next => cases hport
  · intro hread
    refine ⟨port.toNat, hread, ?_⟩
    rw [if_pos port.toNat_lt, UInt16.ofNat_toNat]

end Grammar

section Values

variable {values hosts : List String} {e : Endpoint}

theorem ofValues_append (hosts : List String) (text : String) :
    ofValues (hosts ++ [text]) = (readPort? text).elim (.error (.badPort text))
      fun port ↦ .ok ⟨hosts.getLast?.getD "localhost", port⟩ := by
  rw [ofValues, defaultHost, List.reverse_append, List.reverse_singleton, List.singleton_append,
    ← List.head?_reverse, ← List.headD_eq_head?_getD]
  dsimp only
  cases readPort? text <;> rfl

theorem ofValues_eq_ok_iff : ofValues values = .ok e ↔ ∃ hosts text, values = hosts ++ [text] ∧
    Writes text e.port.toNat ∧ e.host = hosts.getLast?.getD "localhost" := by
  constructor
  · intro h
    obtain rfl | ⟨hosts, text, rfl⟩ := List.eq_nil_or_concat' values
    · cases h
    · rw [ofValues_append] at h
      cases hport : readPort? text with
      | none =>
        rw [hport] at h
        cases h
      | some port =>
        rw [hport] at h
        cases h
        exact ⟨hosts, text, rfl, readPort?_eq_some_iff.mp hport, rfl⟩
  · rintro ⟨hosts, text, rfl, hport, hhost⟩
    rw [ofValues_append, readPort?_eq_some_iff.mpr hport, Option.elim_some, ← hhost]

theorem message_of_ofValues_eq_error {error : EndpointError} (h : ofValues values = .error error) :
    error.message = "Invalid remote endpoint: " ++
      values.getLast?.elim "a port is required" fun text ↦ "'" ++ text ++ "' is not a valid port" := by
  obtain rfl | ⟨hosts, text, rfl⟩ := List.eq_nil_or_concat' values
  · cases h
    rfl
  · rw [ofValues_append] at h
    rw [List.getLast?_concat, Option.elim_some]
    cases hport : readPort? text with
    | none =>
      rw [hport] at h
      cases h
      have hlead : "Invalid remote endpoint: " ++ "'" = "Invalid remote endpoint: '" := by
        decide +kernel
      rw [← String.append_assoc, ← String.append_assoc, hlead]
      rfl
    | some port =>
      rw [hport] at h
      cases h

theorem ofValues_rtake (values : List String) : ofValues (values.rtake 2) = ofValues values := by
  obtain rfl | ⟨hosts, text, rfl⟩ := List.eq_nil_or_concat' values
  · rfl
  · have hhost : (hosts.rtake 1).getLast? = hosts.getLast? := by
      obtain rfl | ⟨more, host, rfl⟩ := List.eq_nil_or_concat' hosts
      · rfl
      · rw [List.rtake_concat_succ, List.getLast?_concat, List.getLast?_concat]
    rw [List.rtake_concat_succ, ofValues_append, ofValues_append, hhost]

/-- The last value has to write a port, and the one before it is the host, if there is one. Values further
left do not count, and what is refused is quoted as it was given. -/
theorem ofValues_grammar (values : List String) :
    (∀ e, ofValues values = .ok e ↔ ∃ hosts text, values = hosts ++ [text] ∧
      Writes text e.port.toNat ∧ e.host = hosts.getLast?.getD "localhost") ∧
    ((∃ e, ofValues values = .ok e) ↔
      ∃ hosts text n, values = hosts ++ [text] ∧ Writes text n ∧ n ≤ 65535) ∧
    (∀ error, ofValues values = .error error → error.message = "Invalid remote endpoint: " ++
      values.getLast?.elim "a port is required" fun text ↦ "'" ++ text ++ "' is not a valid port") ∧
    ∀ values', values'.rtake 2 = values.rtake 2 → ofValues values' = ofValues values := by
  refine ⟨fun e ↦ ofValues_eq_ok_iff, ⟨?_, ?_⟩, fun error ↦ message_of_ofValues_eq_error, ?_⟩
  · rintro ⟨e, he⟩
    obtain ⟨hosts, text, hvalues, hport, -⟩ := ofValues_eq_ok_iff.mp he
    exact ⟨hosts, text, e.port.toNat, hvalues, hport, Nat.le_of_lt_succ e.port.toNat_lt⟩
  · rintro ⟨hosts, text, n, hvalues, hport, hn⟩
    have hsize : (UInt16.ofNat n).toNat = n := UInt16.toNat_ofNat_of_lt' (Nat.lt_succ_of_le hn)
    exact ⟨⟨hosts.getLast?.getD "localhost", .ofNat n⟩,
      ofValues_eq_ok_iff.mpr ⟨hosts, text, hvalues, by rwa [hsize], rfl⟩⟩
  · intro values' h
    rw [← ofValues_rtake values', h, ofValues_rtake]

/-- The largest port, behind an empty host and with zeros it does not need, and the number after it. -/
theorem ofValues_grammar_at_the_largest :
    let values := ["ignored", "", "\u3000+0000065535\t"]
    let values' := ["localhost", " 65536"]
    ofValues values = .ok ⟨"", 65535⟩ ∧ ofValues (values.rtake 2) = ofValues values ∧
      ofValues values' = .error (.badPort " 65536") ∧
      EndpointError.message (.badPort " 65536") =
        "Invalid remote endpoint: ' 65536' is not a valid port" := by
  intro values values'
  obtain ⟨hok, -, -, hlast⟩ := ofValues_grammar values
  have hnumeral : IsNumeral "+0000065535".toList 65535 :=
    ⟨['+'], "0000065535".toList, by decide +kernel, .inr rfl, by decide +kernel,
      List.all_eq_true.mp (by decide +kernel), by decide +kernel⟩
  have hwrites : Writes "\u3000+0000065535\t" 65535 :=
    ⟨['\u3000'], _, ['\t'], by decide +kernel, by simp [Text.isBlank], by simp [Text.isBlank], hnumeral⟩
  have herror : ofValues values' = .error (.badPort " 65536") := by decide +kernel
  have hmessage := (ofValues_grammar values').2.2.1 _ herror
  refine ⟨(hok _).mpr ⟨["ignored", ""], _, rfl, hwrites, rfl⟩, hlast _ (by decide +kernel), herror, ?_⟩
  rw [hmessage]
  decide +kernel

end Values

section Text

/-- `s` in two at its last `c`, without it. -/
def CutsAtLast (c : Char) (s before after : String) : Prop :=
  s = before ++ String.singleton c ++ after ∧ c ∉ after.toList

theorem rtakeWhile_behind_last {α : Type} [DecidableEq α] {x : α} {after : List α} (h : x ∉ after)
    (before : List α) : (before ++ x :: after).rtakeWhile (· ≠ x) = after := by
  have hplain : ∀ y ∈ after.reverse, decide (y ≠ x) := by
    intro y hy
    rw [List.mem_reverse] at hy
    simpa using ne_of_mem_of_not_mem hy h
  rw [List.rtakeWhile, List.reverse_append, List.reverse_cons, List.append_assoc,
    List.takeWhile_append_of_pos hplain, List.singleton_append,
    List.takeWhile_cons_of_neg (by simp), List.append_nil, List.reverse_reverse]

theorem CutsAtLast.unique {s before after before' after' : String} (h : CutsAtLast c s before after)
    (h' : CutsAtLast c s before' after') : before' = before ∧ after' = after := by
  obtain ⟨rfl, hafter⟩ := h
  obtain ⟨hs, hafter'⟩ := h'
  have hchars : before.toList ++ c :: after.toList = before'.toList ++ c :: after'.toList := by
    simpa using congrArg String.toList hs
  have hbehind := congrArg (List.rtakeWhile (· ≠ c)) hchars
  rw [rtakeWhile_behind_last hafter, rtakeWhile_behind_last hafter'] at hbehind
  rw [hbehind] at hchars
  exact ⟨String.toList_inj.mp (List.append_cancel_right hchars).symm,
    String.toList_inj.mp hbehind.symm⟩

theorem writes_text (n : Nat) : Writes (Decimal.text n) n := by
  refine ⟨[], Decimal.digits n, [], ?_, nofun, nofun, ?_⟩
  · simp [Decimal.text]
  · exact ⟨[], Decimal.digits n, rfl, .inl rfl, Decimal.digits_ne_nil n,
      fun _ ↦ Decimal.isDigit_of_mem_digits, Decimal.number_digits n⟩

theorem ofValues_text (values : List String) (port : UInt16) :
    ofValues (values ++ [Decimal.text port.toNat]) = .ok ⟨values.getLast?.getD "localhost", port⟩ :=
  ofValues_eq_ok_iff.mpr ⟨values, _, rfl, writes_text _, rfl⟩

theorem ofValues_host_text (values : List String) (e : Endpoint) :
    ofValues (values ++ [e.host, Decimal.text e.port.toNat]) = .ok e := by
  have h := ofValues_text (values ++ [e.host]) e.port
  rwa [List.append_assoc, List.singleton_append, List.getLast?_concat, Option.getD_some] at h

theorem text_cutsAtLast (e : Endpoint) :
    CutsAtLast ':' e.text e.host (Decimal.text e.port.toNat) := by
  refine ⟨rfl, ?_⟩
  rw [Decimal.text, String.toList_ofList]
  intro hm
  cases Decimal.isDigit_of_mem_digits hm

/-- An address is read back from the values that name it, whatever stands in front of them. No colon is in
a port, however many are in the host, and so no two addresses have one text. -/
theorem text_tells_endpoint (e : Endpoint) :
    let digits := Decimal.text e.port.toNat
    (∀ values, ofValues (values ++ [e.host, digits]) = .ok e) ∧
    (∀ before after, CutsAtLast ':' e.text before after ↔ before = e.host ∧ after = digits) ∧
    (∀ values, ofValues (values ++ [digits]) = .ok ⟨values.getLast?.getD "localhost", e.port⟩) ∧
    ∀ e' : Endpoint, e'.text = e.text → e' = e := by
  intro digits
  have hcut := text_cutsAtLast e
  refine ⟨fun values ↦ ofValues_host_text values e, ?_, fun values ↦ ofValues_text values e.port, ?_⟩
  · intro before after
    constructor
    · exact hcut.unique
    · rintro ⟨rfl, rfl⟩
      exact hcut
  · intro e' htext
    have hcut' := text_cutsAtLast e'
    rw [htext] at hcut'
    obtain ⟨hhost, hdigits⟩ := hcut.unique hcut'
    have hread := ofValues_host_text [] e'
    rw [hhost, hdigits, ofValues_host_text] at hread
    exact (Except.ok.inj hread).symm

/-- A host of colons alone. -/
example : (Endpoint.mk "::" 80).text = ":::80" ∧ ofValues ["::", "80"] = .ok ⟨"::", 80⟩ := by
  decide +kernel

end Text

end DebugSession.Endpoint
