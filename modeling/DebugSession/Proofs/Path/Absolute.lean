import DebugSession.Path.Absolute
import DebugSession.Proofs.Text.Lines

/-!
What an absolute path is made of. `Spells` lists what stands between its slashes, joining adds to the list,
and a path made absolute spells its steps behind its own root or behind the current directory.
-/

namespace DebugSession.Path

section Pieces

variable {p q : Path}

def pieces (p : Path) : List Bytes := p.bytes.splitOn slash

theorem names_eq (p : Path) : p.names = p.pieces.filter (· ≠ []) := by
  rw [names, Text.cutAt_eq_splitOn, pieces]

theorem slash_notMem {piece : Bytes} (h : piece ∈ p.pieces) : slash ∉ piece := by
  intro hm
  rw [pieces, List.splitOn_eq_splitOnP] at h
  have hs := Text.mark_of_mem_splitOnP h hm
  simp at hs

theorem pieces_append_slash (xs ys : Bytes) :
    pieces ⟨xs ++ slash :: ys⟩ = pieces ⟨xs⟩ ++ pieces ⟨ys⟩ :=
  List.splitOn_append_cons_self xs ys

theorem pieces_nil : pieces ⟨[]⟩ = [[]] := List.splitOn_nil slash

theorem pieces_plain {bs : Bytes} (h : slash ∉ bs) : pieces ⟨bs⟩ = [bs] :=
  List.splitOn_eq_singleton h

theorem eq_of_pieces (h : p.pieces = q.pieces) : p = q := by
  have hbytes := congrArg ([slash].intercalate ·) h
  simp only [pieces, List.intercalate_splitOn] at hbytes
  obtain ⟨bs⟩ := p
  obtain ⟨bs'⟩ := q
  exact congrArg Path.mk hbytes

/-- A path ends in a slash just if nothing stands behind its last one. -/
theorem endsInSlash_of_pieces {before : List Bytes} (hne : before ≠ [])
    (h : p.pieces = before ++ [[]]) : p.endsInSlash := by
  have hplain : ∀ piece ∈ before, slash ∉ piece := by
    intro piece hm
    exact slash_notMem (p := p) (by rw [h]; exact List.mem_append_left _ hm)
  have hsplit : pieces ⟨[slash].intercalate before ++ slash :: []⟩ = before ++ [[]] := by
    rw [pieces_append_slash, pieces_nil, pieces, List.splitOn_intercalate slash hplain hne]
  rw [eq_of_pieces (h.trans hsplit.symm), endsInSlash]
  simp

theorem pieces_of_endsInSlash (h : p.endsInSlash) :
    ∃ xs, p.bytes = xs ++ [slash] ∧ p.pieces = pieces ⟨xs⟩ ++ [[]] := by
  obtain ⟨bs⟩ := p
  rw [endsInSlash, decide_eq_true_eq, List.getLast?_eq_some_iff] at h
  obtain ⟨xs, rfl⟩ := h
  exact ⟨xs, rfl, by rw [← pieces_nil, ← pieces_append_slash]⟩

theorem isAbsolute_of_pieces {rest : List Bytes} (hne : rest ≠ []) (h : p.pieces = [] :: rest) :
    p.isAbsolute := by
  obtain ⟨bs⟩ := p
  cases bs with
  | nil =>
    rw [pieces_nil] at h
    cases h
    exact absurd rfl hne
  | cons b bs =>
    rw [pieces, List.splitOn_cons_eq_if_modifyHead] at h
    split at h
    · next hb => simpa [isAbsolute] using hb
    · obtain ⟨first, more, hs⟩ := List.exists_cons_of_ne_nil (List.splitOn_ne_nil slash bs)
      rw [hs] at h
      cases h

end Pieces

section Spells

variable {p q : Path} {double closed : Bool} {spelled steps : List Bytes} {step : Bytes}

/-- A name that counts: it is not empty and not `.`. -/
def IsStep (name : Bytes) : Prop := name ≠ [] ∧ name ≠ dot

/-- Behind the first slash of `p` there may be a second one; then come the steps `spelled`, and a slash
behind the last of them if the path is `closed`. The first slash closes a path without steps. -/
structure Spells (p : Path) (double : Bool) (spelled : List Bytes) (closed : Bool) : Prop where
  pieces : p.pieces =
    [] :: ((if double then [[]] else []) ++ spelled ++ (if closed then [[]] else []))
  steps : ∀ step ∈ spelled, IsStep step
  closed_of_nil : spelled = [] → closed = true

theorem Spells.isAbsolute (h : p.Spells double spelled closed) : p.isAbsolute := by
  refine isAbsolute_of_pieces ?_ h.pieces
  intro hnil
  simp only [List.append_eq_nil_iff] at hnil
  have hclosed := h.closed_of_nil hnil.1.2
  rw [hclosed] at hnil
  cases hnil.2

theorem Spells.endsInSlash (h : p.Spells double spelled closed) : p.endsInSlash = closed := by
  have hpieces := h.pieces
  cases closed with
  | true =>
    rw [← List.cons_append] at hpieces
    exact endsInSlash_of_pieces (List.cons_ne_nil _ _) hpieces
  | false =>
    rw [← Bool.not_eq_true]
    intro hend
    obtain ⟨xs, -, hlast⟩ := pieces_of_endsInSlash hend
    obtain rfl | ⟨init, last, rfl⟩ := List.eq_nil_or_concat spelled
    · cases h.closed_of_nil rfl
    · rw [List.concat_eq_append] at hpieces h
      have hsame : Path.pieces ⟨xs⟩ ++ [[]] = ([] :: ((if double then [[]] else []) ++ init)) ++ [last] := by
        rw [← hlast, hpieces]
        simp
      have hnil : [[]] = [last] := List.append_inj_right' hsame rfl
      have hstep := (h.steps last (by simp)).1
      cases hnil
      exact hstep rfl

theorem join_relative (h : p.isAbsolute) (hq : slash ∉ q.bytes) : p.join q =
    if p.endsInSlash then ⟨p.bytes ++ q.bytes⟩ else ⟨p.bytes ++ slash :: q.bytes⟩ := by
  have hp : p.bytes ≠ [] := by
    intro hnil
    simp [isAbsolute, hnil] at h
  have hrelative : q.isAbsolute = false := by
    rw [isAbsolute, decide_eq_false_iff_not]
    intro hs
    exact hq (List.mem_of_mem_head? hs)
  simp [join, hrelative, hp]

theorem pieces_join (h : p.isAbsolute) (hq : slash ∉ q.bytes) :
    (p.join q).pieces = (if p.endsInSlash then p.pieces.dropLast else p.pieces) ++ [q.bytes] := by
  rw [join_relative h hq, ← pieces_plain hq]
  split
  next hend =>
    obtain ⟨xs, hbytes, hpieces⟩ := pieces_of_endsInSlash hend
    rw [hbytes, hpieces, List.dropLast_concat, List.append_assoc, List.singleton_append,
      pieces_append_slash]
  next => exact pieces_append_slash _ _

/-- Joining a step adds it, in the place of the slash at the end if there is one. -/
theorem Spells.join (h : p.Spells double spelled closed) (hs : IsStep step) (hn : slash ∉ step) :
    (p.join ⟨step⟩).Spells double (spelled ++ [step]) false where
  pieces := by
    rw [pieces_join h.isAbsolute hn, h.endsInSlash, h.pieces]
    cases closed with
    | true => simp [List.dropLast_cons_of_ne_nil]
    | false => simp
  steps := by
    intro s hm
    obtain hm | hm := List.mem_append.mp hm
    · exact h.steps s hm
    · rw [List.mem_singleton.mp hm]
      exact hs
  closed_of_nil hnil := by simp at hnil

theorem Spells.close (h : p.Spells double spelled closed) :
    (p.join ⟨[]⟩).Spells double spelled true where
  pieces := by
    rw [pieces_join h.isAbsolute List.not_mem_nil, h.endsInSlash, h.pieces]
    cases closed with
    | true => simp [List.dropLast_cons_of_ne_nil]
    | false => simp
  steps := h.steps
  closed_of_nil _ := rfl

theorem Spells.walk (h : p.Spells double spelled closed) (hs : ∀ step ∈ steps, IsStep step)
    (hn : ∀ step ∈ steps, slash ∉ step) :
    (steps.foldl (fun q step ↦ q.join ⟨step⟩) p).Spells double (spelled ++ steps)
      (closed && steps.isEmpty) := by
  induction steps generalizing p spelled closed with
  | nil => simpa using h
  | cons step steps ih =>
    have hjoin := h.join (hs step List.mem_cons_self) (hn step List.mem_cons_self)
    have hwalk := ih hjoin (fun s hm ↦ hs s (List.mem_cons_of_mem step hm))
      fun s hm ↦ hn s (List.mem_cons_of_mem step hm)
    simpa using hwalk

theorem rootOf_spells (p : Path) : p.rootOf.Spells p.hasDoubleRoot [] true := by
  rw [rootOf]
  cases p.hasDoubleRoot with
  | true => exact ⟨by decide, nofun, fun _ ↦ rfl⟩
  | false => exact ⟨by decide, nofun, fun _ ↦ rfl⟩

theorem steps_areSteps (p : Path) : ∀ step ∈ p.steps, IsStep step ∧ slash ∉ step := by
  intro step hm
  obtain ⟨hnames, hdot⟩ := List.mem_filter.mp hm
  rw [names_eq] at hnames
  obtain ⟨hpieces, hne⟩ := List.mem_filter.mp hnames
  exact ⟨⟨by simpa using hne, by simpa using hdot⟩, slash_notMem hpieces⟩

theorem absolute_defined (cwd : Except IoError Path) (hne : p.bytes ≠ [])
    (hcwd : p.isAbsolute = false → ∃ dir, cwd = .ok dir) : ∃ q, absolute cwd p = .ok q := by
  rw [absolute, if_neg hne]
  dsimp only
  cases h : p.isAbsolute with
  | true => exact ⟨_, rfl⟩
  | false =>
    obtain ⟨dir, rfl⟩ := hcwd h
    exact ⟨_, rfl⟩

/-- A path made absolute: its steps are spelled behind its own root, or behind what the current directory
spells. -/
theorem absolute_spells {cwd : Except IoError Path} (h : Path.absolute cwd p = .ok q) :
    p.isAbsolute ∧ q.Spells p.hasDoubleRoot p.steps (p.endsInSlash || p.steps.isEmpty) ∨
    p.isAbsolute = false ∧ ∃ dir, cwd = .ok dir ∧
      ∀ double spelled closed, dir.Spells double spelled closed →
        q.Spells double (spelled ++ p.steps) (p.endsInSlash || (closed && p.steps.isEmpty)) := by
  have hwalk : ∀ (base : Path) double spelled closed, base.Spells double spelled closed →
      (if p.endsInSlash then (p.steps.foldl (fun q step ↦ q.join ⟨step⟩) base).join ⟨[]⟩
        else p.steps.foldl (fun q step ↦ q.join ⟨step⟩) base).Spells double (spelled ++ p.steps)
          (p.endsInSlash || (closed && p.steps.isEmpty)) := by
    intro base double spelled closed hbase
    have hsteps := hbase.walk (fun step hm ↦ (steps_areSteps p step hm).1)
      fun step hm ↦ (steps_areSteps p step hm).2
    cases p.endsInSlash with
    | true => simpa using hsteps.close
    | false => simpa using hsteps
  rw [Path.absolute] at h
  split at h
  · cases h
  dsimp only at h
  split at h
  next habsolute =>
    cases h
    exact .inl ⟨habsolute, hwalk _ _ _ _ (rootOf_spells p)⟩
  next hrelative =>
    cases cwd with
    | error e => cases h
    | ok dir =>
      cases h
      exact .inr ⟨Bool.not_eq_true _ ▸ hrelative, dir, rfl, hwalk dir⟩

end Spells

section Tidy

/-- An absolute path in which nothing can be left out: behind the one or two slashes at its front no name
is empty or `.`, and at most one slash ends it. -/
structure IsTidy (p : Path) : Prop where
  isAbsolute : p.isAbsolute
  spells : ∃ double spelled closed, p.Spells double spelled closed

theorem Spells.isTidy {p : Path} {double closed : Bool} {spelled : List Bytes}
    (h : p.Spells double spelled closed) : p.IsTidy :=
  ⟨h.isAbsolute, double, spelled, closed, h⟩

theorem absolute_isTidy {cwd : Except IoError Path} {p q : Path}
    (hcwd : ∀ dir, cwd = .ok dir → dir.IsTidy) (h : Path.absolute cwd p = .ok q) : q.IsTidy := by
  obtain ⟨-, hspells⟩ | ⟨-, dir, hdir, hspells⟩ := absolute_spells h
  · exact hspells.isTidy
  · obtain ⟨-, double, spelled, closed, hspelled⟩ := hcwd dir hdir
    exact (hspells double spelled closed hspelled).isTidy

end Tidy

end DebugSession.Path
