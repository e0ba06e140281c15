import DebugSession.Text.Blank

/-!
Stripping the ends of a list and of a text. What is stripped is junk, and junk put around a list or taken
away from around it makes no difference to what is left.
-/

namespace DebugSession.Text

section Lists

variable {α β : Type} {junk : α → Bool} {junk' : β → Bool} {lead tail : List α}

theorem trimEnd_append_junk (h : ∀ x ∈ tail, junk x) (xs : List α) :
    trimEnd junk (xs ++ tail) = trimEnd junk xs := by
  have hreverse : ∀ x ∈ tail.reverse, junk x := fun x hx ↦ h x (List.mem_reverse.mp hx)
  rw [trimEnd, trimEnd, List.reverse_append, List.dropWhile_append_of_pos hreverse]

theorem exists_trimEnd_append (junk : α → Bool) (xs : List α) :
    ∃ tail, xs = trimEnd junk xs ++ tail ∧ ∀ x ∈ tail, junk x := by
  refine ⟨(xs.reverse.takeWhile junk).reverse, ?_, ?_⟩
  · rw [trimEnd, ← List.reverse_append, List.takeWhile_append_dropWhile, List.reverse_reverse]
  · intro x hx
    exact List.all_eq_true.mp List.all_takeWhile x (List.mem_reverse.mp hx)

theorem trimEnd_append_trimEnd (xs ys : List α) :
    trimEnd junk (xs ++ trimEnd junk ys) = trimEnd junk (xs ++ ys) := by
  obtain ⟨tail, hys, htail⟩ := exists_trimEnd_append junk ys
  have hdrop := trimEnd_append_junk htail (xs ++ trimEnd junk ys)
  rw [List.append_assoc, ← hys] at hdrop
  exact hdrop.symm

theorem mem_of_mem_trimEnd {xs : List α} {x : α} (h : x ∈ trimEnd junk xs) : x ∈ xs := by
  rw [trimEnd, List.mem_reverse] at h
  exact List.mem_reverse.mp ((List.dropWhile_sublist junk).subset h)

theorem trimBoth_append_junk (h : ∀ x ∈ tail, junk x) (xs : List α) :
    trimBoth junk (xs ++ tail) = trimBoth junk xs := by
  rw [trimBoth, trimBoth, List.dropWhile_append]
  split
  next hempty =>
    have hnil : (tail ++ []).dropWhile junk = [] := List.dropWhile_append_of_pos h
    rw [List.append_nil] at hnil
    rw [hnil, List.isEmpty_iff.mp hempty]
  next => exact trimEnd_append_junk h _

theorem trimBoth_junk_append (h : ∀ x ∈ lead, junk x) (xs : List α) :
    trimBoth junk (lead ++ xs) = trimBoth junk xs := by
  rw [trimBoth, trimBoth, List.dropWhile_append_of_pos h]

theorem exists_append_trimBoth (junk : α → Bool) (xs : List α) :
    ∃ lead tail, xs = lead ++ trimBoth junk xs ++ tail ∧ (∀ x ∈ lead, junk x) ∧
      ∀ x ∈ tail, junk x := by
  obtain ⟨tail, hrest, htail⟩ := exists_trimEnd_append junk (xs.dropWhile junk)
  refine ⟨xs.takeWhile junk, tail, ?_, List.all_eq_true.mp List.all_takeWhile, htail⟩
  rw [trimBoth, List.append_assoc, ← hrest, List.takeWhile_append_dropWhile]

theorem trimBoth_trimBoth (xs : List α) : trimBoth junk (trimBoth junk xs) = trimBoth junk xs := by
  obtain ⟨lead, tail, hxs, hlead, htail⟩ := exists_append_trimBoth junk xs
  have hall := trimBoth_append_junk htail (lead ++ trimBoth junk xs)
  rw [← hxs, trimBoth_junk_append hlead] at hall
  exact hall.symm

theorem not_junk_of_head?_dropWhile {xs : List α} {x : α} (h : (xs.dropWhile junk).head? = some x) :
    junk x = false := by
  have hhead := List.head?_dropWhile_not junk xs
  rwa [h] at hhead

/-- Nothing that is left at an end is junk. -/
theorem not_junk_of_ends {xs : List α} {x : α}
    (h : (trimBoth junk xs).head? = some x ∨ (trimBoth junk xs).getLast? = some x) :
    junk x = false := by
  obtain hhead | hlast := h
  · obtain ⟨tail, hrest, -⟩ := exists_trimEnd_append junk (xs.dropWhile junk)
    have hfirst : (xs.dropWhile junk).head? = some x := by
      rw [hrest, List.head?_append, ← trimBoth, hhead, Option.some_or]
    exact not_junk_of_head?_dropWhile hfirst
  · rw [trimBoth, trimEnd, List.getLast?_reverse] at hlast
    exact not_junk_of_head?_dropWhile hlast

theorem dropWhile_eq_self {xs : List α} (h : ∀ x ∈ xs.head?, junk x = false) :
    xs.dropWhile junk = xs := by
  cases xs with
  | nil => rfl
  | cons x xs => exact List.dropWhile_cons_of_neg (by simp [h x rfl])

theorem trimBoth_eq_self {xs : List α} (hhead : ∀ x ∈ xs.head?, junk x = false)
    (hlast : ∀ x ∈ xs.getLast?, junk x = false) : trimBoth junk xs = xs := by
  have hreverse : xs.reverse.dropWhile junk = xs.reverse :=
    dropWhile_eq_self fun x hx ↦ hlast x (by rwa [List.head?_reverse] at hx)
  rw [trimBoth, dropWhile_eq_self hhead, trimEnd, hreverse, List.reverse_reverse]

theorem mem_trimEnd_of_mem_trimBoth {xs : List α} {x : α} (h : x ∈ trimBoth junk xs) :
    x ∈ trimEnd junk xs := by
  obtain ⟨tail, hxs, htail⟩ := exists_trimEnd_append junk xs
  have hsame := trimBoth_append_junk htail (trimEnd junk xs)
  rw [← hxs] at hsame
  rw [hsame, trimBoth] at h
  exact (List.dropWhile_sublist junk).subset (mem_of_mem_trimEnd h)

theorem dropWhile_flatMap {f : α → List β} (hjunk : ∀ x, junk x → ∀ y ∈ f x, junk' y)
    (hplain : ∀ x, junk x = false → ∃ y ys, f x = y :: ys ∧ junk' y = false) (xs : List α) :
    (xs.flatMap f).dropWhile junk' = (xs.dropWhile junk).flatMap f := by
  induction xs with
  | nil => rfl
  | cons x xs ih =>
    rw [List.flatMap_cons]
    cases hx : junk x with
    | true =>
      rw [List.dropWhile_append_of_pos (hjunk x hx), List.dropWhile_cons_of_pos hx, ih]
    | false =>
      obtain ⟨y, ys, hy, hj⟩ := hplain x hx
      rw [List.dropWhile_cons_of_neg (by simp [hx]), List.flatMap_cons, hy, List.cons_append,
        List.dropWhile_cons_of_neg (by simp [hj])]

theorem trimEnd_flatMap {f : α → List β} (hjunk : ∀ x, junk x → ∀ y ∈ f x, junk' y)
    (hplain : ∀ x, junk x = false → ∃ ys y, f x = ys ++ [y] ∧ junk' y = false) (xs : List α) :
    trimEnd junk' (xs.flatMap f) = (trimEnd junk xs).flatMap f := by
  have hd : (xs.reverse.flatMap (List.reverse ∘ f)).dropWhile junk' =
      (xs.reverse.dropWhile junk).flatMap (List.reverse ∘ f) := by
    refine dropWhile_flatMap (fun x hx y hy ↦ hjunk x hx y (List.mem_reverse.mp hy)) ?_ _
    intro x hx
    obtain ⟨ys, y, hy, hj⟩ := hplain x hx
    exact ⟨y, ys.reverse, by simp [hy], hj⟩
  rw [trimEnd, trimEnd, List.reverse_flatMap, hd, List.reverse_flatMap]
  simp [Function.comp_def]

end Lists

theorem trim_append_blank {tail : List Char} (h : ∀ c ∈ tail, isBlank c) (cs : List Char) :
    trim (String.ofList (cs ++ tail)) = trim (String.ofList cs) := by
  rw [trim, trim, String.toList_ofList, String.toList_ofList, trimBoth_append_junk h]

theorem trim_trim (s : String) : trim (trim s) = trim s := by
  rw [trim, trim, String.toList_ofList, trimBoth_trimBoth]

theorem exists_dropLineEnd_append (line : List Char) :
    ∃ tail, line = dropLineEnd line ++ tail ∧ ∀ c ∈ tail, isLineEnd c := by
  rw [dropLineEnd]
  split
  next rest hreverse =>
    have hline := congrArg List.reverse hreverse
    rw [List.reverse_reverse] at hline
    exact ⟨['\r', '\n'], by simpa using hline, by simp [isLineEnd]⟩
  next rest _ hreverse =>
    have hline := congrArg List.reverse hreverse
    rw [List.reverse_reverse] at hline
    exact ⟨['\n'], by simpa using hline, by simp [isLineEnd]⟩
  next => exact ⟨[], (List.append_nil line).symm, by simp⟩

theorem isBlank_of_isLineEnd {c : Char} (h : isLineEnd c) : isBlank c := by
  simp only [isLineEnd, Bool.or_eq_true, decide_eq_true_eq] at h
  obtain rfl | rfl := h <;> decide

theorem trim_dropLineEnd (line : List Char) :
    trim (String.ofList (dropLineEnd line)) = trim (String.ofList line) := by
  obtain ⟨tail, hline, htail⟩ := exists_dropLineEnd_append line
  have hsame := trim_append_blank (fun c hc ↦ isBlank_of_isLineEnd (htail c hc)) (dropLineEnd line)
  rw [← hline] at hsame
  exact hsame.symm

end DebugSession.Text
