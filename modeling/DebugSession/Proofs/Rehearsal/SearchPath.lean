import DebugSession.Proofs.Lookup.Script
import DebugSession.Proofs.Path.Join
import DebugSession.Rehearsal.World

/-!
The search path of a rehearsal. Its program directory stands in front of what was inherited, so a script in
there is found before any other, and everything else is found as it would be without.
-/

namespace DebugSession.Lookup

variable {dir : Path} {searchPath inherited : Option Bytes} {entry : Bytes}

theorem colon_notMem_of_mem_entries (h : entry ∈ entries inherited) : colon ∉ entry := by
  cases inherited with
  | none => cases h
  | some bytes =>
    rw [entries, Option.elim_some, List.splitOn_eq_splitOnP] at h
    intro hm
    exact absurd (Text.mark_of_mem_splitOnP h hm) (by decide)

theorem holds_eq (h : dir.bytes ≠ []) (isPresent : Path → Bool) (name : String) :
    holds isPresent name dir.bytes = isPresent (dir.join (.ofText name)) := by
  simp [holds, h]

/-- What a directory changes that is put in front of all others. -/
theorem whence_front (hne : dir.bytes ≠ []) (hcut : entries searchPath = dir.bytes :: entries inherited)
    (isPresent : Path → Bool) (name : String) :
    whence isPresent searchPath name =
      if '/' ∉ name.toList ∧ isPresent (dir.join (.ofText name)) then dir.join (.ofText name)
      else whence isPresent inherited name := by
  by_cases hname : '/' ∈ name.toList
  · rw [if_neg fun h ↦ h.1 hname, whence, whence, if_pos (hasSeparator_iff.mpr hname),
      if_pos (hasSeparator_iff.mpr hname)]
  · have hholds := holds_eq hne isPresent name
    rw [whence_eq hname, whence_eq hname, hcut]
    split
    next hfound =>
      have hentry := hholds.trans hfound.2
      exact (leads_iff.mp (.into [] dir.bytes _ rfl (by simp) hentry)).symm
    next habsent =>
      have hskipped : ∀ e ∈ [dir.bytes], holds isPresent name e = false := by
        intro e he
        rw [List.mem_singleton.mp he, hholds]
        simpa [hname] using habsent
      change along isPresent name ([] ++ [dir.bytes] ++ entries inherited) =
        along isPresent name ([] ++ entries inherited)
      exact along_extra hskipped

end DebugSession.Lookup

namespace DebugSession.Rehearsal.World

open Lookup

theorem bytes_binDir_ne_nil (w : World) : w.binDir.bytes ≠ [] := by
  have hrelative : (Path.ofText "bin").isAbsolute = false := by decide +kernel
  obtain ⟨between, -, hbytes⟩ := Path.exists_bytes_join hrelative w.root
  rw [binDir, hbytes]
  have hbin : (Path.ofText "bin").bytes ≠ [] := by decide +kernel
  simp [hbin]

theorem searchPath?_eq {binDir : Path} (h : colon ∉ binDir.bytes) (inherited : Option Bytes) :
    searchPath? binDir inherited = some ([colon].intercalate (binDir.bytes :: entries inherited)) := by
  have hcut : Text.cutAt (· = colon) = fun bytes : Bytes ↦ bytes.splitOn colon :=
    funext fun bytes ↦ Text.cutAt_eq_splitOn colon bytes
  rw [searchPath?, if_neg (by simpa using h), hcut]
  rfl

/-- Entries of a search path have no colon in them, so that they can be told apart again. -/
theorem entries_intercalate {dir : Bytes} (h : colon ∉ dir) (inherited : Option Bytes) :
    entries (some ([colon].intercalate (dir :: entries inherited))) = dir :: entries inherited := by
  rw [entries, Option.elim_some]
  apply List.splitOn_intercalate colon
  · intro entry hm
    obtain rfl | hm := List.mem_cons.mp hm
    · exact h
    · exact colon_notMem_of_mem_entries hm
  · exact List.cons_ne_nil _ _

/-- The search path of a rehearsal can be written if there is no colon in the name of its program directory.
Cut at its colons it is that directory and then the entries that were inherited, all of them and in order. A
bare name is found in the directory if it is there, whatever else there is, and every other name is found
where the inherited path alone leads. -/
theorem searchPath_begins_in_binDir (w : World) (h : colon ∉ w.binDir.bytes) (inherited : Option Bytes) :
    ∃ searchPath, searchPath? w.binDir inherited = some searchPath ∧
      entries (some searchPath) = w.binDir.bytes :: entries inherited ∧
      ∀ (isPresent : Path → Bool) (name : String),
        ('/' ∉ name.toList → isPresent (w.binDir.join (.ofText name)) →
          whence isPresent (some searchPath) name = w.binDir.join (.ofText name)) ∧
        ('/' ∈ name.toList ∨ ¬isPresent (w.binDir.join (.ofText name)) →
          whence isPresent (some searchPath) name = whence isPresent inherited name) := by
  have hcut := entries_intercalate h inherited
  refine ⟨_, searchPath?_eq h inherited, hcut, fun isPresent name ↦ ?_⟩
  rw [whence_front w.bytes_binDir_ne_nil hcut]
  refine ⟨fun hname hpresent ↦ if_pos ⟨hname, hpresent⟩, fun hother ↦ if_neg ?_⟩
  rintro ⟨hname, hpresent⟩
  exact hother.elim hname (· hpresent)

/-- The inherited path has empty entries around a directory with a script of the same name and another one. -/
theorem searchPath_begins_in_binDir_same_name :
    let w : World := { root := .ofText "/tmp/w", disk := ⟨[]⟩ }
    let isPresent (path : Path) : Bool :=
      path ∈ [Path.ofText "/usr/bin/app.rb", .ofText "/usr/bin/lib.rb", .ofText "/tmp/w/bin/app.rb"]
    let inherited := some (Utf8.encode ":/usr/bin::")
    colon ∉ w.binDir.bytes ∧ whence isPresent inherited "app.rb" = .ofText "/usr/bin/app.rb" ∧
      ∃ searchPath, searchPath? w.binDir inherited = some searchPath ∧
        entries (some searchPath) = ["/tmp/w/bin", "", "/usr/bin", "", ""].map Utf8.encode ∧
        whence isPresent (some searchPath) "app.rb" = .ofText "/tmp/w/bin/app.rb" ∧
        whence isPresent (some searchPath) "lib.rb" = .ofText "/usr/bin/lib.rb" := by
  intro w isPresent inherited
  have hcolon : colon ∉ w.binDir.bytes := by decide +kernel
  obtain ⟨searchPath, hwritten, hcut, hfound⟩ := searchPath_begins_in_binDir w hcolon inherited
  refine ⟨hcolon, by decide +kernel, searchPath, hwritten, hcut.trans (by decide +kernel), ?_, ?_⟩
  · obtain ⟨hbin, -⟩ := hfound isPresent "app.rb"
    exact (hbin (by decide +kernel) (by decide +kernel)).trans (by decide +kernel)
  · obtain ⟨-, hother⟩ := hfound isPresent "lib.rb"
    exact (hother (.inr (by decide +kernel))).trans (by decide +kernel)

end DebugSession.Rehearsal.World
