import DebugSession.Proofs.Path.Absolute

/-!
The normal form of a path. What a path spells decides its octets and can be read off them, so that making a
path absolute a second time changes nothing.
-/

namespace DebugSession.Path

variable {p q dir : Path} {double closed : Bool} {spelled : List Bytes}

section Readings

theorem Spells.unique (h : p.Spells double spelled closed) (h' : q.Spells double spelled closed) :
    p = q :=
  eq_of_pieces (h.pieces.trans h'.pieces.symm)

theorem Spells.names_eq (h : p.Spells double spelled closed) : p.names = spelled := by
  have hkept : spelled.filter (· ≠ []) = spelled := by
    rw [List.filter_eq_self]
    intro step hm
    simpa using (h.steps step hm).1
  have hnone (extra : Bool) : (if extra then [([] : Bytes)] else []).filter (· ≠ []) = [] := by
    cases extra <;> rfl
  rw [Path.names_eq, h.pieces, List.filter_cons_of_neg (by simp), List.filter_append,
    List.filter_append, hkept, hnone, hnone, List.nil_append, List.append_nil]

theorem Spells.steps_eq (h : p.Spells double spelled closed) : p.steps = spelled := by
  rw [Path.steps, h.names_eq, List.filter_eq_self]
  intro step hm
  simpa using (h.steps step hm).2

theorem head?_intercalate {name : Bytes} (hne : name ≠ []) (names : List Bytes) :
    ([slash].intercalate (name :: names)).head? = name.head? := by
  obtain ⟨b, rest, rfl⟩ := List.exists_cons_of_ne_nil hne
  cases names with
  | nil => rw [List.intercalate_singleton]
  | cons next names =>
    rw [List.intercalate_cons_cons]
    rfl

/-- No slash follows the one or two at the front. -/
theorem Spells.bytes_eq (h : p.Spells double spelled closed) : ∃ rest, rest.head? ≠ some slash ∧
    p.bytes = slash :: (if double then [slash] else []) ++ rest := by
  have hbytes : p.bytes = [slash].intercalate p.pieces := (List.intercalate_splitOn slash).symm
  refine ⟨[slash].intercalate (spelled ++ if closed then [[]] else []), ?_, ?_⟩
  · cases spelled with
    | nil => simp [h.closed_of_nil rfl]
    | cons step more =>
      rw [List.cons_append, head?_intercalate (h.steps step List.mem_cons_self).1]
      intro hhead
      have hpiece : step ∈ p.pieces := by simp [h.pieces]
      exact slash_notMem hpiece (List.mem_of_mem_head? hhead)
  · have hne : spelled ++ (if closed then [[]] else []) ≠ [] := by
      intro hnil
      obtain ⟨rfl, hclosed⟩ := List.append_eq_nil_iff.mp hnil
      simp [h.closed_of_nil rfl] at hclosed
    obtain ⟨first, more, hfirst⟩ := List.exists_cons_of_ne_nil hne
    rw [hbytes, h.pieces, List.append_assoc, hfirst]
    cases double <;> simp [List.intercalate_cons_cons]

theorem Spells.hasDoubleRoot_eq (h : p.Spells double spelled closed) : p.hasDoubleRoot = double := by
  obtain ⟨rest, hhead, hbytes⟩ := h.bytes_eq
  rw [hasDoubleRoot, hbytes]
  cases double with
  | true => simpa using hhead
  | false =>
    cases rest with
    | nil => rfl
    | cons b rest =>
      have hb : b ≠ slash := by simpa using hhead
      simp [hb]

end Readings

section Absolute

theorem Spells.absolute_eq_self (h : p.Spells double spelled closed) (cwd : Except IoError Path) :
    absolute cwd p = .ok p := by
  have habsolute := h.isAbsolute
  have hne : p.bytes ≠ [] := by
    intro hnil
    simp [Path.isAbsolute, hnil] at habsolute
  have hrelative : p.isAbsolute ≠ false := by simp [habsolute]
  obtain ⟨q, hq⟩ := absolute_defined cwd hne fun h' ↦ absurd h' hrelative
  obtain ⟨-, hspells⟩ | ⟨h', -⟩ := absolute_spells hq
  · rw [h.hasDoubleRoot_eq, h.steps_eq, h.endsInSlash] at hspells
    have hclosed : (closed || spelled.isEmpty) = closed := by
      rw [Bool.or_eq_left_iff_imp, List.isEmpty_iff]
      exact h.closed_of_nil
    rw [hclosed] at hspells
    rw [hq, hspells.unique h]
  · exact absurd h' hrelative

/-- A directory as the system names it: only a root ends in a slash. -/
structure IsNormal (p : Path) : Prop where
  isTidy : p.IsTidy
  eq_root : p.endsInSlash → p.steps = []

theorem IsNormal.spells (h : dir.IsNormal) :
    dir.Spells dir.hasDoubleRoot dir.steps dir.steps.isEmpty := by
  obtain ⟨⟨-, double, spelled, closed, hspells⟩, hroot⟩ := h
  rw [hspells.endsInSlash, hspells.steps_eq] at hroot
  rw [hspells.hasDoubleRoot_eq, hspells.steps_eq]
  have hclosed : spelled.isEmpty = closed := by
    rw [Bool.eq_iff_iff, List.isEmpty_iff]
    exact ⟨hspells.closed_of_nil, hroot⟩
  rwa [hclosed]

/-- The steps in front of those of `p`, and whether two slashes stand in front of them. -/
def baseSteps (dir p : Path) : List Bytes := if p.isAbsolute then [] else dir.steps

def baseIsDouble (dir p : Path) : Bool :=
  if p.isAbsolute then p.hasDoubleRoot else dir.hasDoubleRoot

/-- A path made absolute has the steps of its base and its own, with nothing between them that could be left
out, and whatever the current directory is by then it stays as it is. Only the empty path cannot be made
absolute. -/
theorem absolute_normal_form (hdir : dir.IsNormal) (hp : p.bytes ≠ []) :
    let whole := baseSteps dir p ++ p.steps
    (∃ q, absolute (.ok dir) p = .ok q ∧
      q.Spells (baseIsDouble dir p) whole (p.endsInSlash || whole.isEmpty) ∧
      q.isAbsolute ∧ q.names = whole ∧ q.hasDoubleRoot = baseIsDouble dir p ∧
      (q.endsInSlash ↔ p.endsInSlash ∨ q.names = []) ∧ ∀ cwd, absolute cwd q = .ok q) ∧
    ∀ cwd, absolute cwd ⟨[]⟩ = .error .emptyPath := by
  intro whole
  refine ⟨?_, fun cwd ↦ rfl⟩
  obtain ⟨q, hq⟩ := absolute_defined (.ok dir) hp fun _ ↦ ⟨dir, rfl⟩
  have hspells : q.Spells (baseIsDouble dir p) whole (p.endsInSlash || whole.isEmpty) := by
    obtain ⟨habsolute, hspells⟩ | ⟨hrelative, dir, ⟨⟩, hspells⟩ := absolute_spells hq
    · simpa [whole, baseSteps, baseIsDouble, habsolute] using hspells
    · have hbehind := hspells _ _ _ hdir.spells
      have hempty : (dir.steps ++ p.steps).isEmpty = (dir.steps.isEmpty && p.steps.isEmpty) := by
        cases dir.steps <;> rfl
      simpa [whole, baseSteps, baseIsDouble, hrelative, hempty] using hbehind
  refine ⟨q, hq, hspells, hspells.isAbsolute, hspells.names_eq, hspells.hasDoubleRoot_eq, ?_,
    hspells.absolute_eq_self⟩
  rw [hspells.endsInSlash, hspells.names_eq, Bool.or_eq_true, List.isEmpty_iff]

/-- Behind a root of two slashes, with everything in the path that may be left out of it. -/
theorem absolute_normal_form_double_root :
    let dir : Path := .ofText "//srv/dev"
    let p : Path := .ofText ".//../lib/./x//"
    let q : Path := .ofText "//srv/dev/../lib/x/"
    dir.IsNormal ∧ p.bytes ≠ [] ∧ absolute (.ok dir) p = .ok q ∧
      q.names = ["srv", "dev", "..", "lib", "x"].map Utf8.encode ∧ q.hasDoubleRoot ∧ q.endsInSlash ∧
      ∀ cwd, absolute cwd q = .ok q := by
  intro dir p q
  have hnowhere : ∀ d : Path, Except.error IoError.notUtf8 = .ok d → d.IsTidy := nofun
  have hself : absolute (.error .notUtf8) dir = .ok dir := rfl
  have hdir : dir.IsNormal := ⟨absolute_isTidy hnowhere hself, by decide +kernel⟩
  have hp : p.bytes ≠ [] := by decide +kernel
  have hq : absolute (.ok dir) p = .ok q := rfl
  obtain ⟨⟨q', hq', -, -, -, -, -, hstays⟩, -⟩ := absolute_normal_form hdir hp
  cases hq.symm.trans hq'
  exact ⟨hdir, hp, hq, by decide +kernel, by decide +kernel, by decide +kernel, hstays⟩

end Absolute

end DebugSession.Path
