import DebugSession.Duration
import DebugSession.Proofs.Text.Decimal

/-!
Time spans in print. The number is read by the unit behind it, and either way it is the span in whole
milliseconds, so that the text tells two spans apart exactly when these differ. The milliseconds of the
longest span need more than 64 bits, and 128 are enough.
-/

namespace DebugSession.Word

variable {w m n : Nat} {x y : BitVec w}

/-- The product, unless the word is too short for it. -/
def mul? (x y : BitVec w) : Option (BitVec w) := if x.umulOverflow y then none else some (x * y)

/-- The sum, unless the word is too short for it. -/
def add? (x y : BitVec w) : Option (BitVec w) := if x.uaddOverflow y then none else some (x + y)

theorem mul?_eq (hx : x.toNat = m) (hy : y.toNat = n) (h : m * n < 2 ^ w) :
    ∃ z, mul? x y = some z ∧ z.toNat = m * n := by
  have hfits : ¬x.umulOverflow y := by
    rw [BitVec.umulOverflow, hx, hy, decide_eq_true_iff]
    exact Nat.not_le.mpr h
  refine ⟨x * y, if_neg hfits, ?_⟩
  rw [BitVec.toNat_mul_of_not_umulOverflow hfits, hx, hy]

theorem add?_eq (hx : x.toNat = m) (hy : y.toNat = n) (h : m + n < 2 ^ w) :
    ∃ z, add? x y = some z ∧ z.toNat = m + n := by
  have hfits : ¬x.uaddOverflow y := by
    rw [BitVec.uaddOverflow, hx, hy, decide_eq_true_iff]
    exact Nat.not_le.mpr h
  refine ⟨x + y, if_neg hfits, ?_⟩
  rw [BitVec.toNat_add_of_not_uaddOverflow hfits, hx, hy]

end DebugSession.Word

namespace DebugSession.Duration

variable {d d' : Duration} {shown : String} {ms ms' : Nat}

section Denotes

/-- A decimal number of seconds or of milliseconds, and the milliseconds it stands for. -/
inductive Denotes : String → Nat → Prop
  | seconds {ds : List Char} (hne : ds ≠ []) (hdigits : ∀ c ∈ ds, c.isDigit) :
      Denotes (.ofList ds ++ "s") (Decimal.number ds * 1000)
  | millis {ds : List Char} (hne : ds ≠ []) (hdigits : ∀ c ∈ ds, c.isDigit) :
      Denotes (.ofList ds ++ "ms") (Decimal.number ds)

theorem denotes_seconds (n : Nat) : Denotes (Decimal.text n ++ "s") (n * 1000) := by
  have h := Denotes.seconds (Decimal.digits_ne_nil n) fun _ ↦ Decimal.isDigit_of_mem_digits
  rwa [Decimal.number_digits] at h

theorem denotes_millis (n : Nat) : Denotes (Decimal.text n ++ "ms") n := by
  have h := Denotes.millis (Decimal.digits_ne_nil n) fun _ ↦ Decimal.isDigit_of_mem_digits
  rwa [Decimal.number_digits] at h

/-- The letter in front of the last one is a digit in seconds only. -/
theorem seconds_ne_millis {ds ds' : List Char} (h : ∀ c ∈ ds, c.isDigit) :
    String.ofList ds ++ "s" ≠ String.ofList ds' ++ "ms" := by
  intro heq
  have hlist : ds ++ ['s'] = (ds' ++ ['m']) ++ ['s'] := by
    simpa using congrArg String.toList heq
  have hm := h 'm' (by simp [List.append_cancel_right hlist])
  exact absurd hm (by decide)

theorem Denotes.unique (h : Denotes shown ms) (h' : Denotes shown ms') : ms = ms' := by
  generalize hshown : shown = shown' at h'
  cases h with
  | seconds _ hdigits =>
    cases h' with
    | seconds => rw [String.ofList_injective ((String.append_left_inj "s").mp hshown)]
    | millis => exact absurd hshown (seconds_ne_millis hdigits)
  | millis _ hdigits =>
    cases h' with
    | seconds _ hdigits' => exact absurd hshown.symm (seconds_ne_millis hdigits')
    | millis => rw [String.ofList_injective ((String.append_left_inj "ms").mp hshown)]

end Denotes

section Millis

theorem toMillis_eq (d : Duration) : d.toMillis = d.seconds.toNat * 1000 + d.nanos.val / 1000000 := by
  rw [toMillis, toNanos]
  omega

theorem text_eq (d : Duration) : d.text =
    if d.toMillis % 1000 = 0 then Decimal.text (d.toMillis / 1000) ++ "s"
    else Decimal.text d.toMillis ++ "ms" := by
  have hnanos := d.nanos.isLt
  have hrest : d.toMillis % 1000 = d.nanos.val / 1000000 := by
    rw [toMillis_eq]
    omega
  have hseconds : d.toMillis / 1000 = d.seconds.toNat := by
    rw [toMillis_eq]
    omega
  rw [text, hrest, hseconds]

theorem denotes_text (d : Duration) : Denotes d.text d.toMillis := by
  rw [text_eq]
  split
  next hwhole =>
    have h := denotes_seconds (d.toMillis / 1000)
    rwa [Nat.div_mul_cancel (Nat.dvd_of_mod_eq_zero hwhole)] at h
  next => exact denotes_millis d.toMillis

theorem text_eq_text_iff : d.text = d'.text ↔ d.toMillis = d'.toMillis := by
  constructor
  · intro h
    exact (denotes_text d).unique (h ▸ denotes_text d')
  · intro h
    rw [text_eq, text_eq, h]

end Millis

section Words

/-- The whole milliseconds of the fraction, in a word of 32 bits. -/
def fractionWord (d : Duration) : UInt32 := UInt32.ofNat d.nanos.val / 1000000

/-- All whole milliseconds, in a word of 128 bits. -/
def millisWord? (d : Duration) : Option (BitVec 128) :=
  (Word.mul? (d.seconds.toBitVec.setWidth 128) 1000).bind
    (Word.add? · (d.fractionWord.toBitVec.setWidth 128))

/-- The text with words in place of numbers. -/
def wordText? (d : Duration) : Option String :=
  if d.fractionWord = 0 then some (Decimal.text d.seconds.toNat ++ "s")
  else d.millisWord?.map (Decimal.text ·.toNat ++ "ms")

theorem toNat_fractionWord (d : Duration) : d.fractionWord.toNat = d.nanos.val / 1000000 := by
  have hfits : d.nanos.val < UInt32.size := Nat.lt_trans d.nanos.isLt (by decide)
  rw [fractionWord, UInt32.toNat_div, UInt32.toNat_ofNat_of_lt' hfits]
  rfl

/-- Seconds of 64 bits are fewer than 2^74 milliseconds. -/
theorem millisWord?_eq (d : Duration) : ∃ word, d.millisWord? = some word ∧ word.toNat = d.toMillis := by
  have hlt := d.seconds.toNat_lt
  have hnanos := d.nanos.isLt
  have hseconds : (d.seconds.toBitVec.setWidth 128).toNat = d.seconds.toNat :=
    BitVec.toNat_setWidth_of_le (by decide)
  have hfraction : (d.fractionWord.toBitVec.setWidth 128).toNat = d.nanos.val / 1000000 :=
    (BitVec.toNat_setWidth_of_le (by decide)).trans (toNat_fractionWord d)
  have hthousand : (1000 : BitVec 128).toNat = 1000 := rfl
  obtain ⟨whole, hmul, hwhole⟩ := Word.mul?_eq hseconds hthousand (by omega)
  obtain ⟨word, hadd, hword⟩ := Word.add?_eq hwhole hfraction (by omega)
  refine ⟨word, ?_, hword.trans (toMillis_eq d).symm⟩
  rw [millisWord?, hmul, Option.bind_some, hadd]

theorem wordText?_eq (d : Duration) : d.wordText? = some d.text := by
  have hzero : d.fractionWord = 0 ↔ d.nanos.val / 1000000 = 0 := by
    rw [← toNat_fractionWord, ← UInt32.toNat_inj]
    rfl
  obtain ⟨word, hword, hmillis⟩ := millisWord?_eq d
  rw [wordText?, text, hword, Option.map_some, hmillis]
  simp only [hzero]
  split <;> rfl

end Words

/-- A printed span is a decimal number of seconds or of milliseconds, and it is the span rounded down to
whole milliseconds in either case. No word runs over on the way. Two spans are printed alike exactly if they
are the same when rounded. -/
theorem text_tells_millis (d : Duration) :
    (∀ ms, Denotes d.text ms ↔ ms = d.toNanos / 1000000) ∧ d.wordText? = some d.text ∧
    ∀ d' : Duration, d.text = d'.text ↔ d.toNanos / 1000000 = d'.toNanos / 1000000 := by
  refine ⟨fun ms ↦ ⟨fun h ↦ h.unique (denotes_text d), ?_⟩, wordText?_eq d, fun d' ↦ text_eq_text_iff⟩
  rintro rfl
  exact denotes_text d

/-- The longest span takes more than 64 bits in milliseconds. -/
example : text ⟨18446744073709551615, 999999999⟩ = "18446744073709551615999ms" := by decide +kernel

end DebugSession.Duration
