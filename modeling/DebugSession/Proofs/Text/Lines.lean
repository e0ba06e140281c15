import DebugSession.Proofs.Text.Trim
import DebugSession.Proofs.Text.Utf8

/-!
Lines of a text and lines of its octets. UTF-8 keeps ASCII apart from everything else, so that cutting at
newlines, stripping line ends and looking for an ASCII lead may be done before or after decoding.
-/

namespace DebugSession

variable {α : Type}

/-- The elements up to the first with `p`, which is one of them, or all of them. -/
def upTo (p : α → Bool) : List α → List α
  | [] => []
  | a :: as => if p a then [a] else a :: upTo p as

theorem upTo_append (p : α → Bool) (as bs : List α) :
    upTo p (as ++ bs) = if as.any p then upTo p as else as ++ upTo p bs := by
  induction as with
  | nil => rfl
  | cons a as ih =>
    rw [List.cons_append, upTo, ih, List.any_cons, upTo]
    cases p a <;> cases as.any p <;> rfl

theorem upTo_eq_self {p : α → Bool} {as : List α} (h : as.any p = false) : upTo p as = as := by
  have ha := upTo_append p as []
  rwa [h, upTo, List.append_nil, if_neg (by simp)] at ha

namespace Text

section Pieces

variable {β : Type} {mark junk : α → Bool} {mark' junk' : β → Bool}

/-- Puts `xs` in front of the first piece, or makes it the only one. -/
def leadWith (xs : List α) : List (List α) → List (List α)
  | [] => [xs]
  | piece :: rest => (xs ++ piece) :: rest

theorem cutAfter_cons_mark {x : α} (h : mark x) (xs : List α) :
    cutAfter mark (x :: xs) = [x] :: cutAfter mark xs := by
  simp [cutAfter, h]

theorem cutAfter_cons {x : α} (h : mark x = false) (xs : List α) :
    cutAfter mark (x :: xs) = leadWith [x] (cutAfter mark xs) := by
  simp only [cutAfter, List.foldr_cons, h, Bool.false_eq_true, if_false]
  split
  next he => rw [he]; rfl
  next he => rw [he]; rfl

theorem cutAfter_append {xs : List α} (hne : xs ≠ []) (h : ∀ x ∈ xs, mark x = false)
    (ys : List α) : cutAfter mark (xs ++ ys) = leadWith xs (cutAfter mark ys) := by
  induction xs with
  | nil => exact absurd rfl hne
  | cons x xs ih =>
    rw [List.cons_append, cutAfter_cons (h x List.mem_cons_self)]
    by_cases hx : xs = []
    · rw [hx, List.nil_append]
    · rw [ih hx fun y hy ↦ h y (List.mem_cons_of_mem x hy)]
      cases cutAfter mark ys <;> rfl

theorem cutAfter_append_cons {xs : List α} (h : ∀ x ∈ xs, mark x = false) {x : α} (hx : mark x)
    (ys : List α) : cutAfter mark (xs ++ x :: ys) = (xs ++ [x]) :: cutAfter mark ys := by
  by_cases hne : xs = []
  · rw [hne, List.nil_append, cutAfter_cons_mark hx, List.nil_append]
  · rw [cutAfter_append hne h, cutAfter_cons_mark hx, leadWith]

/-- Pieces of a list are pieces of what its elements are spelled as, if a mark is spelled as a mark and
nothing else has one in it. -/
theorem cutAfter_flatMap {f : α → List β} (hmark : ∀ x, mark x → ∃ y, f x = [y] ∧ mark' y)
    (hplain : ∀ x, mark x = false → f x ≠ [] ∧ ∀ y ∈ f x, mark' y = false) (xs : List α) :
    cutAfter mark' (xs.flatMap f) = (cutAfter mark xs).map (·.flatMap f) := by
  induction xs with
  | nil => rfl
  | cons x xs ih =>
    rw [List.flatMap_cons]
    cases hx : mark x with
    | true =>
      obtain ⟨y, hy, hm⟩ := hmark x hx
      rw [hy, List.singleton_append, cutAfter_cons_mark hm, cutAfter_cons_mark hx, ih]
      simp [hy]
    | false =>
      obtain ⟨hne, hy⟩ := hplain x hx
      rw [cutAfter_append hne hy, cutAfter_cons hx, ih]
      cases cutAfter mark xs <;> simp [leadWith]

theorem mem_of_mem_cutAfter {xs piece : List α} {x : α} (hp : piece ∈ cutAfter mark xs)
    (hx : x ∈ piece.dropLast) : mark x = false := by
  induction xs generalizing piece with
  | nil => cases hp
  | cons y ys ih =>
    cases hy : mark y with
    | true =>
      rw [cutAfter_cons_mark hy, List.mem_cons] at hp
      obtain rfl | hp := hp
      · cases hx
      · exact ih hp hx
    | false =>
      rw [cutAfter_cons hy] at hp
      cases hc : cutAfter mark ys with
      | nil =>
        rw [hc, leadWith, List.mem_singleton] at hp
        subst hp
        cases hx
      | cons first rest =>
        rw [hc, leadWith, List.mem_cons] at hp
        rw [hc] at ih
        obtain rfl | hp := hp
        · cases first with
          | nil => cases hx
          | cons z zs =>
            rw [List.singleton_append, List.dropLast_cons_cons, List.mem_cons] at hx
            obtain rfl | hx := hx
            · exact hy
            · exact ih List.mem_cons_self hx
        · exact ih (List.mem_cons_of_mem first hp) hx

theorem cutAt_eq_splitOnP (mark : α → Bool) (xs : List α) : cutAt mark xs = xs.splitOnP mark := by
  induction xs with
  | nil => simp [cutAt]
  | cons x xs ih =>
    have hne := List.splitOnP_ne_nil mark xs
    rw [List.splitOnP_cons_eq_if_modifyHead, ← ih]
    rw [← ih] at hne
    simp only [cutAt, List.foldr_cons] at hne ⊢
    split
    · rfl
    · split
      · next h => exact absurd h hne
      · next h => rw [h, List.modifyHead_cons]

theorem cutAt_eq_splitOn [DecidableEq α] [BEq α] [LawfulBEq α] (x : α) (xs : List α) :
    cutAt (· = x) xs = xs.splitOn x := by
  have hmark : (fun y ↦ decide (y = x)) = (· == x) := by
    funext y
    exact (Bool.beq_eq_decide_eq y x).symm
  rw [cutAt_eq_splitOnP, List.splitOn_eq_splitOnP, hmark]

theorem mark_of_mem_splitOnP {xs piece : List α} {x : α} (hp : piece ∈ xs.splitOnP mark)
    (hx : x ∈ piece) : mark x = false := by
  induction xs generalizing piece with
  | nil =>
    rw [List.splitOnP_nil, List.mem_singleton] at hp
    subst hp
    cases hx
  | cons y ys ih =>
    rw [List.splitOnP_cons_eq_if_modifyHead] at hp
    split at hp
    · obtain rfl | hp := List.mem_cons.mp hp
      · cases hx
      · exact ih hp hx
    · next hy =>
      obtain ⟨first, rest, hs⟩ := List.exists_cons_of_ne_nil (List.splitOnP_ne_nil mark ys)
      rw [hs] at ih
      rw [hs, List.modifyHead_cons] at hp
      obtain rfl | hp := List.mem_cons.mp hp
      · obtain rfl | hx := List.mem_cons.mp hx
        · simpa using hy
        · exact ih List.mem_cons_self hx
      · exact ih (List.mem_cons_of_mem first hp) hx

theorem mem_trimEnd_of_cutAfter {xs piece : List α} {x : α} (hj : ∀ y, mark y → junk y)
    (hp : piece ∈ cutAfter mark xs) (hx : x ∈ trimEnd junk piece) : mark x = false := by
  by_cases hne : piece = []
  · subst hne
    cases hx
  rw [← List.dropLast_concat_getLast hne] at hx
  cases hm : mark (piece.getLast hne) with
  | true =>
    have hlast : ∀ y ∈ [piece.getLast hne], junk y := by simpa using hj _ hm
    rw [trimEnd_append_junk hlast] at hx
    exact mem_of_mem_cutAfter hp (mem_of_mem_trimEnd hx)
  | false =>
    obtain hx | hx := List.mem_append.mp (mem_of_mem_trimEnd hx)
    · exact mem_of_mem_cutAfter hp hx
    · rw [List.mem_singleton] at hx
      exact hx ▸ hm

end Pieces

/-- A text is a line without its newline, or such a line, a newline and a text behind it. -/
theorem line_induction {motive : List Char → Prop}
    (last : ∀ line, (∀ c ∈ line, isNewline c = false) → motive line)
    (next : ∀ line rest, (∀ c ∈ line, isNewline c = false) → motive rest →
      motive (line ++ '\n' :: rest))
    (cs : List Char) : motive cs := by
  suffices h : ∀ line, (∀ c ∈ line, isNewline c = false) → motive (line ++ cs) from h [] nofun
  induction cs with
  | nil =>
    intro line hline
    rw [List.append_nil]
    exact last line hline
  | cons c cs ih =>
    intro line hline
    by_cases hc : c = '\n'
    · subst hc
      exact next line cs hline (ih [] nofun)
    · rw [← List.singleton_append, ← List.append_assoc]
      refine ih (line ++ [c]) fun d hd ↦ ?_
      obtain hd | hd := List.mem_append.mp hd
      · exact hline d hd
      · rw [List.mem_singleton.mp hd]
        simpa [isNewline] using hc

def isLineEndOctet (b : UInt8) : Bool := b = 0x0D ∨ b = 0x0A

theorem isNewline_agrees : Utf8.Agree isNewline (fun b ↦ b = 0x0A) where
  char_ascii c h := by
    simp only [isNewline, decide_eq_true_eq] at h
    subst h
    decide
  octet_ascii b h := by
    simp only [decide_eq_true_eq] at h
    subst h
    decide
  agree c h := by
    rw [isNewline, decide_eq_decide, ← UInt8.toNat_inj, Utf8.toNat_ofNat_of_lt (by omega),
      Char.ext_iff, ← UInt32.toNat_inj]
    rfl

theorem isLineEnd_agrees : Utf8.Agree isLineEnd isLineEndOctet where
  char_ascii c h := by
    simp only [isLineEnd, decide_eq_true_eq, Bool.or_eq_true] at h
    obtain rfl | rfl := h <;> decide
  octet_ascii b h := by
    simp only [isLineEndOctet, decide_eq_true_eq] at h
    obtain rfl | rfl := h <;> decide
  agree c h := by
    rw [isLineEnd, isLineEndOctet, ← Bool.decide_or, decide_eq_decide, ← UInt8.toNat_inj,
      ← UInt8.toNat_inj, Utf8.toNat_ofNat_of_lt (by omega), Char.ext_iff, Char.ext_iff,
      ← UInt32.toNat_inj, ← UInt32.toNat_inj]
    rfl

end Text

namespace Utf8

open Text

theorem cutAfter_encode (s : String) :
    cutAfter (· = 0x0A) (encode s) =
      (cutAfter isNewline s.toList).map fun line ↦ encode (String.ofList line) := by
  have h := isNewline_agrees
  rw [encode, cutAfter_flatMap (fun c hc ↦ h.found hc)
    fun c hc ↦ ⟨String.utf8EncodeChar_ne_nil, h.not_found hc⟩]
  simp [encode]

theorem encode_chomp (s : String) : encode (chomp s) = trimEnd isLineEndOctet (encode s) := by
  have h := isLineEnd_agrees
  rw [encode, encode, chomp, String.toList_ofList]
  refine (trimEnd_flatMap (fun c hc b hb ↦ ?_) (fun c hc ↦ ?_) s.toList).symm
  · obtain ⟨b', hb', hq⟩ := h.found hc
    rw [hb', List.mem_singleton] at hb
    exact hb ▸ hq
  · have hne : String.utf8EncodeChar c ≠ [] := String.utf8EncodeChar_ne_nil
    exact ⟨_, _, (List.dropLast_concat_getLast hne).symm,
      h.not_found hc _ (List.getLast_mem hne)⟩

theorem encode_append (s t : String) : encode (s ++ t) = encode s ++ encode t := by
  simp [encode]

theorem encode_join (texts : List String) : encode (String.join texts) = texts.flatMap encode := by
  induction texts with
  | nil => rfl
  | cons text texts ih => rw [String.join_cons, encode_append, ih, List.flatMap_cons]

theorem isPrefixOf_encodeChar {lead : List Char} (h : ∀ c ∈ lead, c.val.toNat < 0x80)
    (cs : List Char) :
    (lead.flatMap String.utf8EncodeChar).isPrefixOf (cs.flatMap String.utf8EncodeChar) =
      lead.isPrefixOf cs := by
  induction lead generalizing cs with
  | nil => simp
  | cons c lead ih =>
    have hc := h c List.mem_cons_self
    rw [List.flatMap_cons, encodeChar_ascii hc]
    cases cs with
    | nil => simp
    | cons d cs =>
      rw [List.flatMap_cons, List.isPrefixOf_cons_cons, ← ih (fun x hx ↦ h x (List.mem_cons_of_mem c hx))]
      by_cases hd : d.val.toNat < 0x80
      · rw [encodeChar_ascii hd, List.singleton_append, List.singleton_append,
          List.isPrefixOf_cons_cons]
        congr 1
        rw [Bool.eq_iff_iff, beq_iff_eq, beq_iff_eq, ← UInt8.toNat_inj,
          toNat_ofNat_of_lt (by omega), toNat_ofNat_of_lt (by omega), Char.ext_iff,
          ← UInt32.toNat_inj]
      · obtain ⟨hne, hwide⟩ := encodeChar_wide (Nat.le_of_not_lt hd)
        obtain ⟨b, bs, hb⟩ := List.exists_cons_of_ne_nil hne
        have hbw := hwide b (by simp [hb])
        have hcd : (c == d) = false := by
          rw [beq_eq_false_iff_ne]
          rintro rfl
          exact hd hc
        have hcb : (UInt8.ofNat c.val.toNat == b) = false := by
          rw [beq_eq_false_iff_ne]
          rintro rfl
          rw [toNat_ofNat_of_lt (by omega)] at hbw
          omega
        rw [hb, List.singleton_append, List.cons_append, List.isPrefixOf_cons_cons, hcd, hcb]
        rfl

/-- What is left of a text behind an ASCII lead, by octets. -/
theorem encode_after? {lead : String} (h : ∀ c ∈ lead.toList, c.val.toNat < 0x80) (s : String) :
    (after? lead s).map encode =
      if (encode lead).isPrefixOf (encode s) then
        some ((encode s).drop (encode lead).length) else none := by
  rw [after?, startsWith, encode, encode, isPrefixOf_encodeChar h]
  split
  next hp =>
    obtain ⟨rest, hrest⟩ := List.isPrefixOf_iff_prefix.mp hp
    rw [← hrest]
    simp [encode]
  next => rfl

end Utf8

end DebugSession
