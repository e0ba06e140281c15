import DebugSession.Lookup
import DebugSession.Proofs.Text.Lines

/-!
Where a script is found. Of the entries of a search path only the first with the script in it counts, and
they count only for a bare name that is nothing in the current directory.
-/

namespace DebugSession.Lookup

variable {isPresent : Path → Bool} {searchPath searchPath' : Option Bytes} {name text : String}
  {path : Path}

section Entries

/-- What stands between the colons of a search path. There is nothing in a missing one. -/
def entries (searchPath : Option Bytes) : List Bytes := searchPath.elim [] (·.splitOn colon)

variable (isPresent name)

/-- Whether the script is in the directory that an entry names. An empty entry names none. -/
def holds (entry : Bytes) : Bool := entry ≠ [] && isPresent (.join ⟨entry⟩ (.ofText name))

/-- Into the first of the entries that holds the script, or back to its name if none does. -/
inductive Leads (along : List Bytes) : Path → Prop
  | into (before : List Bytes) (entry : Bytes) (after : List Bytes)
      (hcut : along = before ++ entry :: after)
      (hbefore : ∀ e ∈ before, holds isPresent name e = false) (hentry : holds isPresent name entry) :
      Leads along (.join ⟨entry⟩ (.ofText name))
  | back (hnone : ∀ e ∈ along, holds isPresent name e = false) : Leads along (.ofText name)

/-- The script in the first entry that holds it. -/
def along (searched : List Bytes) : Path :=
  (searched.find? (holds isPresent name)).elim (.ofText name) fun entry ↦
    .join ⟨entry⟩ (.ofText name)

variable {isPresent name} {searched before extra after after' : List Bytes} {entry : Bytes}

theorem leads_iff : Leads isPresent name searched path ↔ path = along isPresent name searched := by
  constructor
  · intro h
    cases h with
    | into before entry after hcut hbefore hentry =>
      have hfind : searched.find? (holds isPresent name) = some entry :=
        List.find?_eq_some_iff_append.mpr
          ⟨hentry, before, after, hcut, fun e he ↦ by simp [hbefore e he]⟩
      rw [along, hfind, Option.elim_some]
    | back hnone =>
      have hfind : searched.find? (holds isPresent name) = none :=
        List.find?_eq_none.mpr fun e he ↦ by simp [hnone e he]
      rw [along, hfind, Option.elim_none]
  · rintro rfl
    rw [along]
    cases hfind : searched.find? (holds isPresent name) with
    | none =>
      have hnone := List.find?_eq_none.mp hfind
      exact .back fun e he ↦ by simpa using hnone e he
    | some entry =>
      obtain ⟨hentry, before, after, hcut, hbefore⟩ := List.find?_eq_some_iff_append.mp hfind
      exact .into before entry after hcut (fun e he ↦ by simpa using hbefore e he) hentry

theorem along_behind_first (hentry : holds isPresent name entry) :
    along isPresent name (before ++ entry :: after') =
      along isPresent name (before ++ entry :: after) := by
  simp [along, List.find?_append, hentry]

theorem along_extra (hextra : ∀ e ∈ extra, holds isPresent name e = false) :
    along isPresent name (before ++ extra ++ after) =
      along isPresent name (before ++ after) := by
  have hnone : extra.find? (holds isPresent name) = none :=
    List.find?_eq_none.mpr fun e he ↦ by simp [hextra e he]
  simp [along, List.find?_append, hnone]

theorem isPresent_along (hne : along isPresent name searched ≠ .ofText name) :
    isPresent (along isPresent name searched) := by
  generalize hpath : along isPresent name searched = path at hne ⊢
  cases leads_iff.mpr hpath.symm with
  | into before entry after hcut hbefore hentry =>
    rw [holds, Bool.and_eq_true] at hentry
    exact hentry.2
  | back => exact absurd rfl hne

end Entries

section Resolve

theorem hasSeparator_iff : hasSeparator name ↔ '/' ∈ name.toList := by simp [hasSeparator]

theorem directories_eq (searchPath : Option Bytes) :
    searchPath.elim [] directories = ((entries searchPath).filter (· ≠ [])).map Path.mk := by
  cases searchPath with
  | none => rfl
  | some bytes =>
    rw [entries, Option.elim_some, Option.elim_some, directories, Text.cutAt_eq_splitOn]

theorem whence_eq (hname : '/' ∉ name.toList) :
    whence isPresent searchPath name = along isPresent name (entries searchPath) := by
  have hholds : (fun entry ↦ decide (decide (entry ≠ []) = true ∧
      (isPresent ∘ (Path.join · (.ofText name)) ∘ Path.mk) entry = true)) = holds isPresent name := by
    funext entry
    simp [holds]
  rw [whence, if_neg (mt hasSeparator_iff.mp hname), directories_eq, List.map_map]
  dsimp only
  rw [List.find?_map, List.find?_filter, hholds, along]
  cases (entries searchPath).find? (holds isPresent name) <;> rfl

/-- A name that is not searched for. -/
def IsPlace (isPresent : Path → Bool) (name : String) : Prop :=
  isPresent (.ofText name) ∨ '/' ∈ name.toList

theorem resolve_place (h : IsPlace isPresent name) :
    resolve isPresent searchPath name = .ofText name := by
  rw [resolve]
  split
  next => rfl
  next habsent =>
    obtain hpresent | hname := h
    · exact absurd hpresent habsent
    · rw [whence, if_pos (hasSeparator_iff.mpr hname)]

theorem resolve_search (h : ¬IsPlace isPresent name) :
    resolve isPresent searchPath name = along isPresent name (entries searchPath) := by
  obtain ⟨habsent, hname⟩ := not_or.mp h
  rw [resolve, if_neg habsent, whence_eq hname]

theorem resolve_congr
    (h : along isPresent name (entries searchPath') = along isPresent name (entries searchPath)) :
    resolve isPresent searchPath' name = resolve isPresent searchPath name := by
  by_cases hplace : IsPlace isPresent name
  · rw [resolve_place hplace, resolve_place hplace]
  · rw [resolve_search hplace, resolve_search hplace, h]

theorem isPresent_resolve (hne : resolve isPresent searchPath name ≠ .ofText name) :
    isPresent (resolve isPresent searchPath name) := by
  by_cases hplace : IsPlace isPresent name
  · exact absurd (resolve_place hplace) hne
  · rw [resolve_search hplace] at hne ⊢
    exact isPresent_along hne

theorem resolve_resolve
    (htext : Utf8.decode? (resolve isPresent searchPath name).bytes = some text) :
    resolve isPresent searchPath text = resolve isPresent searchPath name := by
  have hpath : resolve isPresent searchPath name = .ofText text :=
    congrArg Path.mk (Utf8.decode?_eq_some_iff.mp htext)
  by_cases hne : resolve isPresent searchPath name = .ofText name
  · -- Nothing was found, and what is looked for again is the same name.
    rw [hne, Path.ofText, Utf8.decode?_encode] at htext
    rw [Option.some.inj htext]
  · have hpresent := isPresent_resolve hne
    rw [hpath] at hpresent
    rw [hpath, resolve_place (.inl hpresent)]

/-- A script is at its name if something is there or the name says where it is, and else in the first
directory of the search path that has it. Nothing behind that directory counts, nor does any entry that is
empty or without the script. What was found may be looked for again. -/
theorem resolve_first_match (isPresent : Path → Bool) (searchPath : Option Bytes) (name : String) :
    let found := resolve isPresent searchPath name
    (isPresent (.ofText name) ∨ '/' ∈ name.toList →
      found = .ofText name ∧ ∀ searchPath', resolve isPresent searchPath' name = found) ∧
    (¬isPresent (.ofText name) → '/' ∉ name.toList →
      ∀ path, Leads isPresent name (entries searchPath) path ↔ path = found) ∧
    (found ≠ .ofText name → isPresent found) ∧
    (∀ before entry after after' searchPath', holds isPresent name entry →
      entries searchPath = before ++ entry :: after →
      entries searchPath' = before ++ entry :: after' →
        resolve isPresent searchPath' name = found) ∧
    (∀ before extra after searchPath', (∀ e ∈ extra, holds isPresent name e = false) →
      entries searchPath = before ++ after → entries searchPath' = before ++ extra ++ after →
        resolve isPresent searchPath' name = found) ∧
    ∀ text, Utf8.decode? found.bytes = some text → resolve isPresent searchPath text = found := by
  intro found
  refine ⟨?_, ?_, isPresent_resolve, ?_, ?_, fun _ ↦ resolve_resolve⟩
  · intro hplace
    have hliteral (searchPath) : resolve isPresent searchPath name = .ofText name :=
      resolve_place hplace
    exact ⟨hliteral searchPath, fun searchPath' ↦ (hliteral searchPath').trans (hliteral searchPath).symm⟩
  · intro habsent hname path
    rw [leads_iff, show found = _ from resolve_search (not_or.mpr ⟨habsent, hname⟩)]
  · intro before entry after after' searchPath' hentry hcut hcut'
    apply resolve_congr
    rw [hcut, hcut']
    exact along_behind_first hentry
  · intro before extra after searchPath' hextra hcut hcut'
    apply resolve_congr
    rw [hcut, hcut']
    exact along_extra hextra

/-- The directory found is named with a slash at its end, behind two empty entries. -/
theorem resolve_first_match_slash_ended :
    let isPresent (path : Path) : Bool :=
      path ∈ [Path.ofText "/opt/bin/tool.rb", .ofText "/usr/bin/tool.rb"]
    let find (searchPath name : String) : Path :=
      resolve isPresent (some (Utf8.encode searchPath)) name
    find "::/opt/bin/:lib:/usr/bin" "tool.rb" = .ofText "/opt/bin/tool.rb" ∧
      find "::/opt/bin/:/home" "tool.rb" = .ofText "/opt/bin/tool.rb" ∧
      find "::lib::/opt/bin/:lib:/usr/bin" "tool.rb" = .ofText "/opt/bin/tool.rb" ∧
      find "::/opt/bin/:lib:/usr/bin" "/opt/bin/tool.rb" = .ofText "/opt/bin/tool.rb" ∧
      find "::/opt/bin/:lib:/usr/bin" "lib/tool.rb" = .ofText "lib/tool.rb" := by
  intro isPresent find
  let searchPath := some (Utf8.encode "::/opt/bin/:lib:/usr/bin")
  let bin := Utf8.encode "/opt/bin/"
  let behind := ["lib", "/usr/bin"].map Utf8.encode
  obtain ⟨-, hleads, -, hbehind, hextra, hagain⟩ := resolve_first_match isPresent searchPath "tool.rb"
  have hcut : entries searchPath = [[], []] ++ bin :: behind := by decide +kernel
  have hentry : holds isPresent "tool.rb" bin := by decide +kernel
  have hfound : Path.ofText "/opt/bin/tool.rb" = resolve isPresent searchPath "tool.rb" :=
    (hleads (by decide +kernel) (by decide +kernel) _).mp
      (.into [[], []] bin behind hcut (by decide +kernel) hentry)
  refine ⟨hfound.symm, ?_, ?_, ?_, ?_⟩
  · rw [hfound]
    exact hbehind [[], []] bin behind [Utf8.encode "/home"] _ hentry hcut (by decide +kernel)
  · rw [hfound]
    exact hextra [[], []] [Utf8.encode "lib", []] (bin :: behind) _ (by decide +kernel) hcut
      (by decide +kernel)
  · rw [hfound]
    exact hagain _ (by decide +kernel)
  · exact ((resolve_first_match isPresent searchPath "lib/tool.rb").1 (.inr (by decide +kernel))).1

end Resolve

end DebugSession.Lookup
