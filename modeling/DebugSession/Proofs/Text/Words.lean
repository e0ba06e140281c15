import DebugSession.Proofs.Text.Lines

/-!
Words of a text. Blanks around a text make no difference to its words, and the first word begins where the
text does unless that is a blank.
-/

namespace DebugSession.Text

section Pieces

variable {α : Type} {mark : α → Bool} {full : List α → Bool} {lead tail : List α}

theorem filter_splitOnP_marks (hfull : full [] = false) (h : ∀ x ∈ tail, mark x) :
    (tail.splitOnP mark).filter full = [] := by
  induction tail with
  | nil => simp [hfull]
  | cons x tail ih =>
    have hrest := ih fun y hy ↦ h y (List.mem_cons_of_mem x hy)
    have hcut := List.splitOnP_append_cons [] tail (h x List.mem_cons_self)
    rw [List.nil_append] at hcut
    rw [hcut, List.filter_append, hrest]
    simp [hfull]

/-- Pieces that are not empty are the same with marks put around. -/
theorem filter_splitOnP_around (full : List α → Bool) (hfull : full [] = false) (hlead : ∀ x ∈ lead, mark x)
    (htail : ∀ x ∈ tail, mark x) (xs : List α) :
    ((lead ++ xs ++ tail).splitOnP mark).filter full = (xs.splitOnP mark).filter full := by
  induction lead with
  | nil =>
    cases tail with
    | nil => rw [List.nil_append, List.append_nil]
    | cons x tail =>
      have hrest := filter_splitOnP_marks hfull fun y hy ↦ htail y (List.mem_cons_of_mem x hy)
      rw [List.nil_append, List.splitOnP_append_cons xs tail (htail x List.mem_cons_self),
        List.filter_append, hrest, List.append_nil]
  | cons x lead ih =>
    have hcut := List.splitOnP_append_cons [] (lead ++ xs ++ tail) (hlead x List.mem_cons_self)
    rw [List.nil_append] at hcut
    rw [List.cons_append, List.cons_append, hcut, List.filter_append,
      ih fun y hy ↦ hlead y (List.mem_cons_of_mem x hy)]
    simp [hfull]

end Pieces

theorem words_eq (s : String) :
    words s = ((s.toList.splitOnP isBlank).filter (· ≠ [])).map String.ofList := by
  rw [words, cutAt_eq_splitOnP]

theorem words_trim (s : String) : words (trim s) = words s := by
  obtain ⟨lead, tail, hs, hlead, htail⟩ := exists_append_trimBoth isBlank s.toList
  have hcut := filter_splitOnP_around (· ≠ []) (by simp) hlead htail
    (trimBoth isBlank s.toList)
  rw [← hs] at hcut
  rw [words_eq, words_eq, trim, String.toList_ofList, hcut]

theorem words_congr {s t : String} (h : trim s = trim t) : words s = words t := by
  rw [← words_trim s, h, words_trim]

theorem words_of_head {s : String} {c : Char} (hs : s.toList.head? = some c) (hc : isBlank c = false) :
    ∃ word rest, words s = word :: rest ∧ word.toList.head? = some c := by
  obtain ⟨cs, hcs⟩ := List.head?_eq_some_iff.mp hs
  obtain ⟨piece, rest, hsplit⟩ := List.exists_cons_of_ne_nil (List.splitOnP_ne_nil isBlank cs)
  refine ⟨.ofList (c :: piece), (rest.filter (· ≠ [])).map .ofList, ?_, by simp⟩
  rw [words_eq, hcs, List.splitOnP_cons_eq_if_modifyHead, hc, hsplit]
  simp

end DebugSession.Text
