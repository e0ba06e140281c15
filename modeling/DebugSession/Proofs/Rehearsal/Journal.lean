import DebugSession.Rehearsal.Journal
import Mathlib.Data.List.Basic
import Mathlib.Data.List.TakeWhile

/-!
Expected entries in a journal. The first place at which an entry can be taken leaves the most behind it, so
that taking each entry there finds all of them if they are there in order at all.
-/

namespace DebugSession.Rehearsal.Journal

variable {j : Journal} {want lacking message : String}
  {expected entries before rest : List String}

theorem passed_of_notMem (h : want ∉ entries) : ∀ e ∈ entries, decide (e ≠ want) := by
  intro e he
  exact decide_eq_true fun heq ↦ h (heq ▸ he)

theorem missing?_absent (h : want ∉ entries) (expected : List String) :
    missing? (want :: expected) entries = some want := by
  rw [missing?, List.dropWhile_eq_nil_iff.mpr (passed_of_notMem h)]

theorem missing?_first (h : want ∉ before) (expected rest : List String) :
    missing? (want :: expected) (before ++ want :: rest) = missing? expected rest := by
  rw [missing?, List.dropWhile_append_of_pos (passed_of_notMem h), List.dropWhile_cons_of_neg (by simp)]

/-- An entry taken at a later place can be taken at the first one instead. -/
theorem cons_sublist_first (h : want ∉ before) :
    (want :: expected).Sublist (before ++ want :: rest) ↔ expected.Sublist rest := by
  constructor
  · intro hsub
    induction before with
    | nil => exact List.cons_sublist_cons.mp hsub
    | cons e before ih =>
      obtain ⟨hne, hbefore⟩ := List.ne_and_not_mem_of_not_mem_cons h
      exact ih hbefore (hsub.of_cons_of_ne hne)
  · intro hsub
    exact (hsub.cons_cons want).trans (List.sublist_append_right before _)

theorem missing?_eq_none_iff : missing? expected entries = none ↔ expected.Sublist entries := by
  induction expected generalizing entries with
  | nil => simp [missing?]
  | cons want expected ih =>
    by_cases hm : want ∈ entries
    · obtain ⟨before, rest, rfl, hbefore⟩ := List.eq_append_cons_of_mem hm
      rw [missing?_first hbefore, ih, cons_sublist_first hbefore]
    · rw [missing?_absent hm]
      exact ⟨nofun, fun hsub ↦ absurd (hsub.subset List.mem_cons_self) hm⟩

/-- What stands in front of `want` is there in order, and not with `want` behind it. -/
def StopsAt (expected entries : List String) (want : String) : Prop :=
  ∃ met unmet, expected = met ++ want :: unmet ∧ met.Sublist entries ∧
    ¬(met ++ [want]).Sublist entries

theorem stopsAt_absent (h : want ∉ entries) :
    StopsAt (want :: expected) entries lacking ↔ lacking = want := by
  constructor
  · rintro ⟨met, unmet, hcut, hmet, -⟩
    cases met with
    | nil => exact (List.head_eq_of_cons_eq hcut).symm
    | cons e met =>
      rw [List.head_eq_of_cons_eq hcut] at h
      exact absurd (hmet.subset List.mem_cons_self) h
  · rintro rfl
    exact ⟨[], expected, rfl, List.nil_sublist _,
      fun hsub ↦ h (List.singleton_sublist.mp hsub)⟩

theorem stopsAt_first (h : want ∉ before) :
    StopsAt (want :: expected) (before ++ want :: rest) lacking ↔ StopsAt expected rest lacking := by
  constructor
  · rintro ⟨met, unmet, hcut, hmet, hlacking⟩
    cases met with
    | nil =>
      rw [List.nil_append, ← List.head_eq_of_cons_eq hcut] at hlacking
      exact absurd (List.singleton_sublist.mpr List.mem_append_cons_self) hlacking
    | cons e met =>
      obtain ⟨rfl, rfl⟩ := List.cons.inj hcut
      rw [cons_sublist_first h] at hmet
      rw [List.cons_append, cons_sublist_first h] at hlacking
      exact ⟨met, unmet, rfl, hmet, hlacking⟩
  · rintro ⟨met, unmet, rfl, hmet, hlacking⟩
    refine ⟨want :: met, unmet, rfl, (cons_sublist_first h).mpr hmet, ?_⟩
    rwa [List.cons_append, cons_sublist_first h]

theorem missing?_eq_some_iff :
    missing? expected entries = some lacking ↔ StopsAt expected entries lacking := by
  induction expected generalizing entries with
  | nil => simp [missing?, StopsAt]
  | cons want expected ih =>
    by_cases hm : want ∈ entries
    · obtain ⟨before, rest, rfl, hbefore⟩ := List.eq_append_cons_of_mem hm
      rw [missing?_first hbefore, ih, stopsAt_first hbefore]
    · rw [missing?_absent hm, stopsAt_absent hm, Option.some_inj, eq_comm]

theorem assertInOrder_eq_ok_iff : j.assertInOrder expected = .ok () ↔ expected.Sublist j.entries := by
  rw [← missing?_eq_none_iff, assertInOrder]
  cases missing? expected j.entries <;> simp

theorem assertInOrder_eq_error_iff : j.assertInOrder expected = .error message ↔
    ∃ want, StopsAt expected j.entries want ∧ message = inOrderMessage want j := by
  simp only [← missing?_eq_some_iff]
  rw [assertInOrder]
  cases missing? expected j.entries <;> simp [eq_comm]

theorem entries_records (j : Journal) (more : List String) :
    (more.foldl record j).entries = j.entries ++ more := by
  induction more generalizing j with
  | nil => exact (List.append_nil _).symm
  | cons entry more ih =>
    rw [List.foldl_cons, ih, record, List.append_assoc, List.singleton_append]

/-- Entries are asserted to be in order exactly if they are a subsequence of the journal's, each as often as
it is expected. What fails is told by the first of them that can no longer be met. Nothing that is recorded
later takes away from an order that holds, and of two lists in a row the first holds of a front part of the
journal and the second of what is behind it. -/
theorem assertInOrder_decides (j : Journal) (expected : List String) :
    (j.assertInOrder expected = .ok () ↔ expected.Sublist j.entries) ∧
    (∀ message, j.assertInOrder expected = .error message ↔
      ∃ want, StopsAt expected j.entries want ∧ message = inOrderMessage want j) ∧
    (j.assertInOrder expected = .ok () →
      ∀ more : List String, (more.foldl record j).assertInOrder expected = .ok ()) ∧
    ∀ first second, j.assertInOrder (first ++ second) = .ok () ↔
      ∃ front back, j.entries = front ++ back ∧
        assertInOrder ⟨front⟩ first = .ok () ∧ assertInOrder ⟨back⟩ second = .ok () := by
  refine ⟨assertInOrder_eq_ok_iff, fun message ↦ assertInOrder_eq_error_iff, ?_, fun first second ↦ ?_⟩
  · intro hok more
    rw [assertInOrder_eq_ok_iff] at hok ⊢
    rw [entries_records]
    exact List.sublist_append_of_sublist_left hok
  · simp only [assertInOrder_eq_ok_iff]
    exact List.append_sublist_iff

/-- What is expected three times and recorded twice is met only after one more is recorded. -/
theorem assertInOrder_decides_repeated :
    let j : Journal := ⟨["launch a.rb", "commands a.rb", "launch a.rb"]⟩
    let thrice := ["launch a.rb", "launch a.rb", "launch a.rb"]
    j.assertInOrder thrice = .error (inOrderMessage "launch a.rb" j) ∧
      (["commands a.rb", "launch a.rb"].foldl record j).assertInOrder thrice = .ok () ∧
      (["commands a.rb", "launch a.rb", "validate a.rb"].foldl record j).assertInOrder thrice =
        .ok () := by
  intro j thrice
  obtain ⟨-, herror, -⟩ := assertInOrder_decides j thrice
  obtain ⟨hok, -, hmore, -⟩ :=
    assertInOrder_decides (["commands a.rb", "launch a.rb"].foldl record j) thrice
  have hnow := hok.mpr (by decide)
  refine ⟨(herror _).mpr ⟨"launch a.rb", ?_, rfl⟩, hnow, hmore hnow ["validate a.rb"]⟩
  exact ⟨["launch a.rb", "launch a.rb"], [], rfl, by decide, by decide⟩

end DebugSession.Rehearsal.Journal
