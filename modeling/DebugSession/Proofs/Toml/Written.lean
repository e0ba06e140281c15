import DebugSession.Proofs.Toml.Quoted
import DebugSession.Proofs.Toml.Table

/-!
Documents as they are written: a key without quotes, an equals sign between spaces, a value, and the end of
the line. Such a line adds its entry to the table.
-/

namespace DebugSession.Toml

open Entries

variable {name : String} {c : Char} {cs rest : List Char} {root : Entries} {v : Value} {d : Draft} {n : Nat}

/-- A key that needs no quotes. -/
structure IsBare (name : String) : Prop where
  ne_nil : name.toList ≠ []
  bare : name.toList.all isBareKey

/-- A line that gives a key, from its first character on. -/
def lineOf (name : String) (cs : List Char) : List Char := name.toList ++ ' ' :: '=' :: ' ' :: cs

theorem ne_of_bare (h : isBareKey c) :
    c ≠ ' ' ∧ c ≠ '\t' ∧ c ≠ '\r' ∧ c ≠ '\n' ∧ c ≠ '#' ∧ c ≠ '[' ∧ c ≠ '"' ∧ c ≠ '\'' := by
  refine ⟨?_, ?_, ?_, ?_, ?_, ?_, ?_, ?_⟩ <;>
    (rintro rfl; revert h; decide)

theorem IsBare.exists_cons (h : IsBare name) :
    ∃ c more, name.toList = c :: more ∧ isBareKey c := by
  obtain ⟨c, more, hname⟩ := List.exists_cons_of_ne_nil h.ne_nil
  exact ⟨c, more, hname, List.all_eq_true.mp h.bare c (hname ▸ List.mem_cons_self)⟩

theorem simpleKey_bare (h : IsBare name) (rest : List Char) :
    simpleKey (name.toList ++ ' ' :: rest) = some (name, ' ' :: rest) := by
  have htaken : (name.toList ++ ' ' :: rest).takeWhile isBareKey = name.toList := by
    rw [List.takeWhile_append_of_pos (List.all_eq_true.mp h.bare)]
    exact List.append_nil _
  have hdropped : (name.toList ++ ' ' :: rest).dropWhile isBareKey = ' ' :: rest := by
    rw [List.dropWhile_append_of_pos (List.all_eq_true.mp h.bare)]
    rfl
  obtain ⟨c, more, hname, hc⟩ := h.exists_cons
  have hne := ne_of_bare hc
  rw [hname, List.cons_append] at htaken hdropped
  rw [hname, List.cons_append, simpleKey, htaken, hdropped]
  · simp [← hname]
  · simp [hne]
  · simp [hne]

theorem assignment_line (h : IsBare name) (read : Reader Value) (cs : List Char) :
    assignment read (lineOf name cs) =
      (read (skipSpace cs)).map fun found ↦ ((([], name), found.1), found.2) := by
  have hkey : dottedKey (lineOf name cs) = some (([], name), ' ' :: '=' :: ' ' :: cs) := by
    rw [dottedKey, lineOf, simpleKey_bare h]
    rfl
  rw [assignment, hkey]
  rfl

theorem assign_new (root : Entries) (name : String) (v : Value) :
    Draft.assign ⟨root, []⟩ [] name v =
      if name ∈ keys root then none else some ⟨root ++ [(name, v)], []⟩ := by
  have hinsert : Draft.assign ⟨root, []⟩ [] name v =
      (insertNew [] name v .header root).map fun root ↦ ⟨root, []⟩ := rfl
  rw [hinsert, insertNew, if_neg (by simp)]
  split
  next hold =>
    rw [if_pos (mem_keys_of_mem (mem_of_get?_eq_some hold))]
    rfl
  next hnew =>
    have hmem := get?_eq_none_iff.mp hnew
    have hput := put_append hmem v []
    rw [List.append_nil] at hput
    rw [if_neg hmem, hput]
    rfl

theorem statement_line (h : IsBare name) (root : Entries) (cs : List Char) :
    statement ⟨root, []⟩ (lineOf name cs) =
      (value nestingLimit (skipSpace cs)).bind fun found ↦
        if name ∈ keys root then none else some (⟨root ++ [(name, found.1)], []⟩, found.2) := by
  obtain ⟨c, more, hname, hc⟩ := h.exists_cons
  have hassignment := assignment_line h (value nestingLimit) cs
  rw [lineOf, hname, List.cons_append] at hassignment ⊢
  rw [statement, hassignment]
  · cases value nestingLimit (skipSpace cs) with
    | none => rfl
    | some found =>
      simp only [Option.map_some, Option.bind_some, assign_new]
      split <;> rfl
  · simp [ne_of_bare hc]
  · simp [ne_of_bare hc]

theorem skipGap_line (h : IsBare name) (cs : List Char) : skipGap (lineOf name cs) = lineOf name cs := by
  obtain ⟨c, more, hname, hc⟩ := h.exists_cons
  have hne := ne_of_bare hc
  rw [lineOf, hname]
  simp [skipGap, skipLines, skipSpace, isSpace, skipComment, newline?, hne]

/-- A line that gives a new key, and the lines behind it. -/
theorem Lines.line (h : IsBare name) (hnew : name ∉ keys root)
    (hvalue : value nestingLimit (skipSpace cs) = some (v, '\n' :: rest))
    (hrest : Lines n ⟨root ++ [(name, v)], []⟩ rest d) : Lines (n + 1) ⟨root, []⟩ (lineOf name cs) d := by
  have hgap := skipGap_line h cs
  have htells := statement_line h root cs
  rw [hvalue, Option.bind_some, if_neg hnew] at htells
  refine .more ?_ (by rw [hgap, htells]) rfl hrest
  rw [hgap, lineOf]
  exact List.append_ne_nil_of_left_ne_nil h.ne_nil _

end DebugSession.Toml
