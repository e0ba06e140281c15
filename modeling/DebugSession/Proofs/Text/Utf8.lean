import DebugSession.Text.Utf8

/-!
UTF-8 in both directions: what `encode` writes is decoded to the same text, and a sequence of octets
that is decoded at all is what `encode` writes for the result.
-/

namespace DebugSession.Utf8

variable {read : List (Option Char)}

section Start

theorem Decoder.start_one {a : UInt8} (h : a.toNat < 0x80) :
    Decoder.start read a = ⟨some (Char.ofNat a.toNat) :: read, none⟩ := by
  rw [Decoder.start, if_pos (UInt8.lt_iff_toNat_lt.mpr h)]

theorem Decoder.start_two {a : UInt8} (h : 0xC2 ≤ a.toNat) (h' : a.toNat ≤ 0xDF) :
    Decoder.start read a = ⟨read, some ⟨1, 0x80, 0xBF, a.toNat - 0xC0⟩⟩ := by
  simp only [Decoder.start, UInt8.lt_iff_toNat_lt, UInt8.le_iff_toNat_le, ← UInt8.toNat_inj,
    UInt8.reduceToNat]
  rw [if_neg (by omega), if_pos ⟨h, h'⟩]

theorem Decoder.start_three {a : UInt8} (h : 0xE0 ≤ a.toNat) (h' : a.toNat ≤ 0xEF) :
    Decoder.start read a = ⟨read, some ⟨2, if a.toNat = 0xE0 then 0xA0 else 0x80,
      if a.toNat = 0xED then 0x9F else 0xBF, a.toNat - 0xE0⟩⟩ := by
  simp only [Decoder.start, UInt8.lt_iff_toNat_lt, UInt8.le_iff_toNat_le, ← UInt8.toNat_inj,
    UInt8.reduceToNat]
  rw [if_neg (by omega), if_neg (by omega)]
  by_cases h₀ : a.toNat = 0xE0
  · simp [h₀]
  by_cases h₁ : a.toNat = 0xED
  · simp [h₁]
  have hlow : 0xE1 ≤ a.toNat := by omega
  simp [h₀, h₁, hlow, h']

theorem Decoder.start_four {a : UInt8} (h : 0xF0 ≤ a.toNat) (h' : a.toNat ≤ 0xF4) :
    Decoder.start read a = ⟨read, some ⟨3, if a.toNat = 0xF0 then 0x90 else 0x80,
      if a.toNat = 0xF4 then 0x8F else 0xBF, a.toNat - 0xF0⟩⟩ := by
  simp only [Decoder.start, UInt8.lt_iff_toNat_lt, UInt8.le_iff_toNat_le, ← UInt8.toNat_inj,
    UInt8.reduceToNat]
  rw [if_neg (by omega), if_neg (by omega), if_neg (by omega), if_neg (by omega),
    if_neg (by omega)]
  by_cases h₀ : a.toNat = 0xF0
  · simp [h₀]
  by_cases h₁ : a.toNat = 0xF4
  · simp [h₁]
  have hlow : 0xF1 ≤ a.toNat := by omega
  have hhigh : a.toNat ≤ 0xF3 := by omega
  simp [h₀, h₁, hlow, hhigh]

theorem Decoder.start_none {a : UInt8} (h : 0x80 ≤ a.toNat)
    (h' : a.toNat < 0xC2 ∨ 0xF4 < a.toNat) :
    Decoder.start read a = ⟨none :: read, none⟩ := by
  simp only [Decoder.start, UInt8.lt_iff_toNat_lt, UInt8.le_iff_toNat_le, ← UInt8.toNat_inj,
    UInt8.reduceToNat]
  rw [if_neg (by omega), if_neg (by omega), if_neg (by omega), if_neg (by omega),
    if_neg (by omega), if_neg (by omega), if_neg (by omega), if_neg (by omega)]

end Start

section Step

variable {due bits : Nat} {low high b : UInt8}

theorem Decoder.step_last (h : low.toNat ≤ b.toNat) (h' : b.toNat ≤ high.toNat) :
    Decoder.step ⟨read, some ⟨1, low, high, bits⟩⟩ b =
      ⟨some (Char.ofNat (bits * 64 + (b.toNat - 0x80))) :: read, none⟩ := by
  simp [Decoder.step, UInt8.le_iff_toNat_le, h, h']

theorem Decoder.step_more (h : low.toNat ≤ b.toNat) (h' : b.toNat ≤ high.toNat) :
    Decoder.step ⟨read, some ⟨due + 2, low, high, bits⟩⟩ b =
      ⟨read, some ⟨due + 1, 0x80, 0xBF, bits * 64 + (b.toNat - 0x80)⟩⟩ := by
  simp [Decoder.step, UInt8.le_iff_toNat_le, h, h']

end Step

theorem toNat_ofNat_of_lt {n : Nat} (h : n < 256) : (UInt8.ofNat n).toNat = n :=
  UInt8.toNat_ofNat_of_lt' h

/-- The decoder reads a character back from its octets, wherever it stands between characters. -/
theorem foldl_step_encodeChar (c : Char) :
    (String.utf8EncodeChar c).foldl Decoder.step ⟨read, none⟩ = ⟨some c :: read, none⟩ := by
  have hvalid : c.val.toNat < 0xD800 ∨ 0xDFFF < c.val.toNat ∧ c.val.toNat < 0x110000 := c.valid
  have hback (n : Nat) (h : n = c.val.toNat) : Char.ofNat n = c := by
    rw [h]
    exact Char.ofNat_toNat c
  rw [String.utf8EncodeChar]
  generalize c.val.toNat = v at hvalid hback ⊢
  have hlast : (UInt8.ofNat (v % 0x40 + 0x80)).toNat = v % 0x40 + 0x80 :=
    toNat_ofNat_of_lt (by omega)
  have hmid : (UInt8.ofNat (v / 64 % 0x40 + 0x80)).toNat = v / 64 % 0x40 + 0x80 :=
    toNat_ofNat_of_lt (by omega)
  have hhigh : (UInt8.ofNat (v / 4096 % 0x40 + 0x80)).toNat = v / 4096 % 0x40 + 0x80 :=
    toNat_ofNat_of_lt (by omega)
  split
  · have ha : (UInt8.ofNat v).toNat = v := toNat_ofNat_of_lt (by omega)
    simp only [List.foldl_cons, List.foldl_nil]
    change Decoder.start read _ = _
    rw [Decoder.start_one (by omega), ha, hback v rfl]
  split
  · have ha : (UInt8.ofNat (v / 64 % 0x20 + 0xC0)).toNat = v / 64 + 0xC0 := by
      rw [toNat_ofNat_of_lt (by omega)]
      omega
    simp only [List.foldl_cons, List.foldl_nil]
    change Decoder.step (Decoder.start read _) _ = _
    rw [Decoder.start_two (by omega) (by omega),
      Decoder.step_last (by simp; omega) (by simp; omega), hback _ (by omega)]
  split
  · have ha : (UInt8.ofNat (v / 4096 % 0x10 + 0xE0)).toNat = v / 4096 + 0xE0 := by
      rw [toNat_ofNat_of_lt (by omega)]
      omega
    simp only [List.foldl_cons, List.foldl_nil]
    change Decoder.step (Decoder.step (Decoder.start read _) _) _ = _
    rw [Decoder.start_three (by omega) (by omega),
      Decoder.step_more (by split <;> simp <;> omega) (by split <;> simp <;> omega),
      Decoder.step_last (by simp; omega) (by simp; omega), hback _ (by omega)]
  · have ha : (UInt8.ofNat (v / 262144 % 0x08 + 0xF0)).toNat = v / 262144 + 0xF0 := by
      rw [toNat_ofNat_of_lt (by omega)]
      omega
    simp only [List.foldl_cons, List.foldl_nil]
    change Decoder.step (Decoder.step (Decoder.step (Decoder.start read _) _) _) _ = _
    rw [Decoder.start_four (by omega) (by omega),
      Decoder.step_more (by split <;> simp <;> omega) (by split <;> simp <;> omega),
      Decoder.step_more (by simp; omega) (by simp; omega),
      Decoder.step_last (by simp; omega) (by simp; omega), hback _ (by omega)]

theorem foldl_step_encode (cs : List Char) :
    (cs.flatMap String.utf8EncodeChar).foldl Decoder.step ⟨read, none⟩ =
      ⟨(cs.map some).reverse ++ read, none⟩ := by
  induction cs generalizing read with
  | nil => rfl
  | cons c cs ih =>
    rw [List.flatMap_cons, List.foldl_append, foldl_step_encodeChar, ih]
    simp

theorem pieces_encode (s : String) : pieces (encode s) = s.toList.map some := by
  rw [pieces, encode, foldl_step_encode]
  simp [Decoder.finish]

theorem decode?_encode (s : String) : decode? (encode s) = some s := by
  rw [decode?, pieces_encode]
  simp [List.filterMap_map]

theorem decodeLossy_encode (s : String) : decodeLossy (encode s) = s := by
  rw [decodeLossy, pieces_encode]
  simp [Function.comp_def]

section Inverse

variable {due : Nat} {a b c d : UInt8}

/-- Every way to go on from `seen` with `due` octets that the decoder takes ends in the octets of the
character that it makes of them. -/
def Completes : (due : Nat) → (low high : UInt8) → (bits : Nat) → (seen : Bytes) → Prop
  | 0, _, _, bits, seen => String.utf8EncodeChar (Char.ofNat bits) = seen
  | due + 1, low, high, bits, seen => ∀ b : UInt8, low.toNat ≤ b.toNat → b.toNat ≤ high.toNat →
      Completes due 0x80 0xBF (bits * 64 + (b.toNat - 0x80)) (seen ++ [b])

theorem val_ofNat {n : Nat} (h : n < 0xD800 ∨ 0xDFFF < n ∧ n < 0x110000) :
    (Char.ofNat n).val.toNat = n := by
  rw [Char.ofNat, dif_pos h]
  rfl

theorem ofNat_eq (a : UInt8) {n : Nat} (h : n = a.toNat) : UInt8.ofNat n = a := by
  rw [h, UInt8.ofNat_toNat]

theorem encodeChar_one (h : a.toNat < 0x80) : String.utf8EncodeChar (Char.ofNat a.toNat) = [a] := by
  rw [String.utf8EncodeChar, val_ofNat (by omega), if_pos (by omega), UInt8.ofNat_toNat]

theorem completes_two (h : 0xC2 ≤ a.toNat) (h' : a.toNat ≤ 0xDF) :
    Completes 1 0x80 0xBF (a.toNat - 0xC0) [a] := by
  intro b hb hb'
  simp only [UInt8.reduceToNat] at hb hb'
  rw [Completes, String.utf8EncodeChar, val_ofNat (by omega), if_neg (by omega),
    if_pos (by omega), ofNat_eq a (by omega), ofNat_eq b (by omega)]
  rfl

theorem completes_three (h : 0xE0 ≤ a.toNat) (h' : a.toNat ≤ 0xEF) :
    Completes 2 (if a.toNat = 0xE0 then 0xA0 else 0x80) (if a.toNat = 0xED then 0x9F else 0xBF)
      (a.toNat - 0xE0) [a] := by
  intro b hb hb' c hc hc'
  have hb₀ : 0x80 ≤ b.toNat ∧ (a.toNat = 0xE0 → 0xA0 ≤ b.toNat) := by
    split at hb <;> simp only [UInt8.reduceToNat] at hb <;> omega
  have hb₁ : b.toNat ≤ 0xBF ∧ (a.toNat = 0xED → b.toNat ≤ 0x9F) := by
    split at hb' <;> simp only [UInt8.reduceToNat] at hb' <;> omega
  simp only [UInt8.reduceToNat] at hc hc'
  rw [Completes, String.utf8EncodeChar, val_ofNat (by omega), if_neg (by omega),
    if_neg (by omega), if_pos (by omega), ofNat_eq a (by omega), ofNat_eq b (by omega),
    ofNat_eq c (by omega)]
  rfl

theorem completes_four (h : 0xF0 ≤ a.toNat) (h' : a.toNat ≤ 0xF4) :
    Completes 3 (if a.toNat = 0xF0 then 0x90 else 0x80) (if a.toNat = 0xF4 then 0x8F else 0xBF)
      (a.toNat - 0xF0) [a] := by
  intro b hb hb' c hc hc' d hd hd'
  have hb₀ : 0x80 ≤ b.toNat ∧ (a.toNat = 0xF0 → 0x90 ≤ b.toNat) := by
    split at hb <;> simp only [UInt8.reduceToNat] at hb <;> omega
  have hb₁ : b.toNat ≤ 0xBF ∧ (a.toNat = 0xF4 → b.toNat ≤ 0x8F) := by
    split at hb' <;> simp only [UInt8.reduceToNat] at hb' <;> omega
  simp only [UInt8.reduceToNat] at hc hc' hd hd'
  rw [Completes, String.utf8EncodeChar, val_ofNat (by omega), if_neg (by omega),
    if_neg (by omega), if_neg (by omega), ofNat_eq a (by omega), ofNat_eq b (by omega),
    ofNat_eq c (by omega), ofNat_eq d (by omega)]
  rfl

/-- A sequence that was begun with the octets `seen`. -/
def Open.Begun (o : Open) (seen : Bytes) : Prop :=
  0 < o.due ∧ Completes o.due o.low o.high o.bits seen

theorem Decoder.start_cases (read : List (Option Char)) (a : UInt8) :
    Decoder.start read a = ⟨none :: read, none⟩ ∨
    (∃ c, Decoder.start read a = ⟨some c :: read, none⟩ ∧ String.utf8EncodeChar c = [a]) ∨
    ∃ o, Decoder.start read a = ⟨read, some o⟩ ∧ o.Begun [a] := by
  by_cases h₁ : a.toNat < 0x80
  · exact .inr (.inl ⟨_, start_one h₁, encodeChar_one h₁⟩)
  by_cases h₀ : a.toNat < 0xC2 ∨ 0xF4 < a.toNat
  · exact .inl (start_none (by omega) h₀)
  right; right
  by_cases h₂ : a.toNat ≤ 0xDF
  · exact ⟨_, start_two (by omega) h₂, Nat.one_pos, completes_two (by omega) h₂⟩
  by_cases h₃ : a.toNat ≤ 0xEF
  · exact ⟨_, start_three (by omega) h₃, Nat.two_pos, completes_three (by omega) h₃⟩
  · exact ⟨_, start_four (by omega) (by omega), Nat.succ_pos 2,
      completes_four (by omega) (by omega)⟩

def readBytes (read : List (Option Char)) : Bytes :=
  (read.reverse.filterMap id).flatMap String.utf8EncodeChar

theorem readBytes_cons (c : Char) (read : List (Option Char)) :
    readBytes (some c :: read) = readBytes read ++ String.utf8EncodeChar c := by
  simp [readBytes]

/-- What a decoder holds of the octets `bs`, as long as none of them were ill-formed. -/
def Decoder.Holds (d : Decoder) (bs : Bytes) : Prop :=
  none ∉ d.read → ∃ seen, bs = readBytes d.read ++ seen ∧
    match d.begun with
    | none => seen = []
    | some o => o.Begun seen

theorem Decoder.Holds.start {bs : Bytes} (h : Decoder.Holds ⟨read, none⟩ bs) (a : UInt8) :
    (Decoder.start read a).Holds (bs ++ [a]) := by
  obtain hs | ⟨c, hs, hc⟩ | ⟨o, hs, ho⟩ := start_cases read a
  · rw [hs]
    intro hn
    simp at hn
  · rw [hs]
    intro hn
    obtain ⟨seen, rfl, hseen⟩ := h fun hm ↦ hn (List.mem_cons_of_mem _ hm)
    obtain rfl : seen = [] := hseen
    exact ⟨[], by rw [readBytes_cons, hc]; simp, rfl⟩
  · rw [hs]
    intro hn
    obtain ⟨seen, rfl, hseen⟩ := h hn
    obtain rfl : seen = [] := hseen
    exact ⟨[a], by simp, ho⟩

theorem Decoder.Holds.step {d : Decoder} {bs : Bytes} (h : d.Holds bs) (b : UInt8) :
    (d.step b).Holds (bs ++ [b]) := by
  obtain ⟨read, _ | o⟩ := d
  · exact h.start b
  rw [Decoder.step]
  dsimp only
  split
  next hr =>
    simp only [UInt8.le_iff_toNat_le] at hr
    split
    next hd =>
      intro hn
      obtain ⟨seen, rfl, hpos, hseen⟩ := h fun hm ↦ hn (List.mem_cons_of_mem _ hm)
      have hone : o.due = 1 := by omega
      rw [hone] at hseen
      have hc : String.utf8EncodeChar _ = seen ++ [b] := hseen b hr.1 hr.2
      exact ⟨[], by rw [readBytes_cons, hc]; simp, rfl⟩
    next hd =>
      intro hn
      obtain ⟨seen, rfl, hpos, hseen⟩ := h hn
      obtain ⟨due, hdue⟩ : ∃ due, o.due = due + 2 := ⟨o.due - 2, by omega⟩
      rw [hdue] at hseen
      refine ⟨seen ++ [b], by simp, Nat.sub_pos_of_lt (by omega), ?_⟩
      simp only [hdue]
      exact hseen b hr.1 hr.2
  next =>
    -- An octet out of range is taken for a first one, but the sequence before it is lost.
    have hlost : Decoder.Holds ⟨none :: read, none⟩ bs := fun hn ↦ absurd List.mem_cons_self hn
    exact hlost.start b

theorem Decoder.Holds.foldl {d : Decoder} {seen : Bytes} (h : d.Holds seen) (bs : Bytes) :
    (bs.foldl Decoder.step d).Holds (seen ++ bs) := by
  induction bs generalizing d seen with
  | nil => simpa using h
  | cons b bs ih => simpa using ih (h.step b)

/-- Only the octets of a text are decoded to it. -/
theorem encode_of_decode? {bs : Bytes} {s : String} (h : decode? bs = some s) : encode s = bs := by
  rw [decode?] at h
  split at h
  next hall =>
    cases h
    have hh : (bs.foldl Decoder.step ⟨[], none⟩).Holds bs :=
      Decoder.Holds.foldl (fun _ ↦ ⟨[], rfl, rfl⟩) bs
    rw [pieces] at hall ⊢
    generalize bs.foldl Decoder.step ⟨[], none⟩ = d at hall hh ⊢
    obtain ⟨read, _ | o⟩ := d
    · have hn : none ∉ read := by
        intro hm
        have := List.all_eq_true.mp hall none (by simpa [Decoder.finish] using hm)
        cases this
      obtain ⟨seen, hbs, rfl⟩ := hh hn
      simpa [encode, Decoder.finish, readBytes] using hbs.symm
    · simp [Decoder.finish] at hall
  next => cases h

theorem decode?_eq_some_iff {bs : Bytes} {s : String} : decode? bs = some s ↔ bs = encode s :=
  ⟨fun h ↦ (encode_of_decode? h).symm, fun h ↦ h ▸ decode?_encode s⟩

end Inverse

section Ascii

theorem encodeChar_ascii {c : Char} (h : c.val.toNat < 0x80) :
    String.utf8EncodeChar c = [UInt8.ofNat c.val.toNat] := by
  rw [String.utf8EncodeChar, if_pos (by omega)]

theorem encodeChar_wide {c : Char} (h : 0x80 ≤ c.val.toNat) :
    String.utf8EncodeChar c ≠ [] ∧ ∀ b ∈ String.utf8EncodeChar c, 0x80 ≤ b.toNat := by
  refine ⟨String.utf8EncodeChar_ne_nil, ?_⟩
  have hlead {n k : Nat} (hk : 0x80 ≤ k) (hn : n + k < 256) :
      0x80 ≤ (UInt8.ofNat (n + k)).toNat := by
    rw [toNat_ofNat_of_lt hn]
    omega
  rw [String.utf8EncodeChar, if_neg (by omega)]
  generalize c.val.toNat = v
  intro b hb
  split at hb
  · simp only [List.mem_cons, List.not_mem_nil, or_false] at hb
    obtain rfl | rfl := hb <;> exact hlead (by omega) (by omega)
  split at hb
  · simp only [List.mem_cons, List.not_mem_nil, or_false] at hb
    obtain rfl | rfl | rfl := hb <;> exact hlead (by omega) (by omega)
  · simp only [List.mem_cons, List.not_mem_nil, or_false] at hb
    obtain rfl | rfl | rfl | rfl := hb <;> exact hlead (by omega) (by omega)

/-- A test of characters and one of octets that find the same in a text: nothing beyond ASCII, and within
it the same. -/
structure Agree (p : Char → Bool) (q : UInt8 → Bool) : Prop where
  char_ascii : ∀ c, p c → c.val.toNat < 0x80
  octet_ascii : ∀ b, q b → b.toNat < 0x80
  agree : ∀ c : Char, c.val.toNat < 0x80 → q (UInt8.ofNat c.val.toNat) = p c

variable {p : Char → Bool} {q : UInt8 → Bool} {c : Char}

theorem Agree.found (h : Agree p q) (hc : p c) : ∃ b, String.utf8EncodeChar c = [b] ∧ q b :=
  ⟨_, encodeChar_ascii (h.char_ascii c hc), by rw [h.agree c (h.char_ascii c hc), hc]⟩

theorem Agree.not_found (h : Agree p q) (hc : p c = false) :
    ∀ b ∈ String.utf8EncodeChar c, q b = false := by
  intro b hb
  by_cases ha : c.val.toNat < 0x80
  · rw [encodeChar_ascii ha, List.mem_singleton] at hb
    rw [hb, h.agree c ha, hc]
  · have hwide := (encodeChar_wide (by omega)).2 b hb
    rw [← Bool.not_eq_true]
    intro hq
    have hlow := h.octet_ascii b hq
    omega

end Ascii

end DebugSession.Utf8
