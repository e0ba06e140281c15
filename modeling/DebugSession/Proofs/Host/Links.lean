import DebugSession.Host.Disk
import DebugSession.Proofs.Path.NormalForm
import DebugSession.Proofs.Path.SameText
import DebugSession.Proofs.Session.Targets

/-!
Paths and the places behind them. Where a path leads is told by its steps and by whether it asks for a
directory, links or not, so that paths of one place find one file.
-/

namespace DebugSession

section Places

/-- Two paths that lead to one place, by their canonical paths. -/
def Files.SamePlace (files : Files) (p q : Path) : Prop :=
  ∃ a b, files.canonical? p = some a ∧ files.canonical? q = some b ∧ a.sameText b

/-- Files that are found by their places, whatever links and texts lead there. A path is opened only if the
system takes it, by its length for one; its place can be told all the same. -/
structure Files.Linked (files : Files) (Takes : Path → Prop) : Prop where
  placed : ∀ {p text}, files.readText p = .ok text → ∃ a, files.canonical? p = some a
  spelled : ∀ {p q}, p.sameText q → p.namesDirectory = q.namesDirectory →
    files.canonical? p = files.canonical? q
  found : ∀ {p q text}, files.SamePlace p q → files.readText q = .ok text → Takes p →
    files.readText p = .ok text

end Places

namespace Host.Disk

open DebugSession.Path

variable {d : Disk} {follow : Bool} {links : Nat} {here cwd place : Place} {steps : List Bytes}

section Dots

/-- Without the `.` that others follow. -/
def undotted : List Bytes → List Bytes
  | [] => []
  | step :: steps => if step = dot ∧ steps ≠ [] then undotted steps else step :: undotted steps

theorem undotted_eq_nil_iff : undotted steps = [] ↔ steps = [] := by
  induction steps with
  | nil => exact Iff.rfl
  | cons step steps ih =>
    rw [undotted]
    split
    next h => simp [ih, h.2]
    next => simp

theorem undotted_append_undotted (before steps : List Bytes) :
    undotted (before ++ undotted steps) = undotted (before ++ steps) := by
  induction before with
  | nil =>
    rw [List.nil_append, List.nil_append]
    induction steps with
    | nil => rfl
    | cons step steps ih =>
      rw [undotted]
      split
      next => exact ih
      next h =>
        rw [undotted, ih]
        exact if_neg fun hn ↦ h ⟨hn.1, fun hs ↦ hn.2 (undotted_eq_nil_iff.mpr hs)⟩
  | cons step before ih =>
    have hempty : before ++ undotted steps = [] ↔ before ++ steps = [] := by
      rw [List.append_eq_nil_iff, List.append_eq_nil_iff, undotted_eq_nil_iff]
    rw [List.cons_append, List.cons_append, undotted, undotted, ih]
    simp only [ne_eq, hempty]

theorem undotted_eq (steps : List Bytes) : undotted steps =
    steps.filter (· ≠ dot) ++ if steps.getLast? = some dot then [dot] else [] := by
  induction steps with
  | nil => rfl
  | cons step steps ih =>
    rw [undotted, ih]
    rcases steps with _ | ⟨next, steps⟩
    · by_cases hs : step = dot <;> simp [hs]
    · by_cases hs : step = dot <;> simp [hs]

theorem walk_off (hd : d.get? here ≠ some .directory) (hs : steps ≠ []) :
    (d.walk follow links here steps).toOption = none := by
  obtain ⟨step, steps, rfl⟩ := List.exists_cons_of_ne_nil hs
  rw [walk]
  split <;> rfl

variable {step : Bytes}

theorem walk_dot (hd : d.get? here = some .directory) (steps : List Bytes) :
    d.walk follow links here (dot :: steps) = d.walk follow links here steps := by
  rw [walk]
  simp [hd, nameLimit, dot]

theorem walk_dotDot (hd : d.get? here = some .directory) (steps : List Bytes) :
    d.walk follow links here (dotDot :: steps) = d.walk follow links here.dropLast steps := by
  rw [walk]
  simp [hd, nameLimit, dot, dotDot]

/-- Where the place behind a link is looked for from. -/
def start (here : Place) (target : Path) : Place := if target.isAbsolute then [] else here

theorem walk_name (hd : d.get? here = some .directory) (hstep : step ≠ dot) (hstep' : step ≠ dotDot)
    (hs : steps ≠ []) : d.walk follow links here (step :: steps) =
      if nameLimit < step.length then .error .nameTooLong
      else match d.get? (here ++ [step]), links with
        | none, _ => .error .noEntry
        | some (.link _), 0 => .error .tooManyLinks
        | some (.link target), links + 1 =>
          d.walk follow links (start here target) (stepsOf target ++ steps)
        | some .directory, _ => d.walk follow links (here ++ [step]) steps
        | some _, _ => .error .notADirectory := by
  rw [walk]
  simp only [hd, hstep, hstep', hs, start]
  rcases d.get? (here ++ [step]) with _ | (_ | _ | target | _ | _)
  · rfl
  · rfl
  · rfl
  · cases links <;> rfl
  · rfl
  · rfl

/-- A `.` only asks whether it stands in a directory, which a name behind it asks as well. -/
theorem walk_undotted_of (hlinks : ∀ n, links = n + 1 → ∀ here steps,
      (d.walk follow n here steps).toOption = (d.walk follow n here (undotted steps)).toOption)
    (here : Place) (steps : List Bytes) :
    (d.walk follow links here steps).toOption =
      (d.walk follow links here (undotted steps)).toOption := by
  induction steps generalizing here with
  | nil => rfl
  | cons step steps ih =>
    by_cases hs : steps = []
    · subst hs
      rw [undotted, if_neg (by simp)]
      rfl
    have hs' : undotted steps ≠ [] := mt undotted_eq_nil_iff.mp hs
    by_cases hd : d.get? here = some .directory
    · rw [undotted]
      by_cases hstep : step = dot
      · rw [if_pos ⟨hstep, hs⟩, hstep, walk_dot hd]
        exact ih here
      rw [if_neg fun h ↦ hstep h.1]
      by_cases hstep' : step = dotDot
      · rw [hstep', walk_dotDot hd, walk_dotDot hd]
        exact ih here.dropLast
      rw [walk_name hd hstep hstep' hs, walk_name hd hstep hstep' hs']
      split
      · rfl
      rcases d.get? (here ++ [step]) with _ | (_ | _ | target | _ | _)
      · rfl
      · rfl
      · exact ih (here ++ [step])
      · cases links with
        | zero => rfl
        | succ n =>
          have hback := hlinks n rfl (start here target) (stepsOf target ++ undotted steps)
          rw [undotted_append_undotted] at hback
          exact (hlinks n rfl _ _).trans hback.symm
      · rfl
      · rfl
    · rw [walk_off hd (List.cons_ne_nil _ _), walk_off hd]
      exact mt undotted_eq_nil_iff.mp (List.cons_ne_nil _ _)

theorem walk_undotted (d : Disk) (follow : Bool) (links : Nat) (here : Place) (steps : List Bytes) :
    (d.walk follow links here steps).toOption =
      (d.walk follow links here (undotted steps)).toOption := by
  induction links generalizing here steps with
  | zero => exact walk_undotted_of (fun n hn ↦ by cases hn) here steps
  | succ links ih =>
    refine walk_undotted_of (fun n hn ↦ ?_) here steps
    obtain rfl : links = n := Nat.succ.inj hn
    exact ih

end Dots

section Places

theorem stepsOf_plain (p : Path) {step : Bytes} (h : step ∈ stepsOf p) : step ≠ [] ∧ slash ∉ step := by
  rw [stepsOf, List.mem_append] at h
  obtain h | h := h
  · rw [names_eq, List.mem_filter] at h
    exact ⟨by simpa using h.2, slash_notMem h.1⟩
  · split at h
    · obtain rfl := List.mem_singleton.mp h
      decide
    · cases h

theorem tidyPlace_concat (hhere : TidyPlace here) {step : Bytes} (hplain : step ≠ [] ∧ slash ∉ step)
    (hstep : step ≠ dot) : TidyPlace (here ++ [step]) := by
  intro name hm
  rcases List.mem_append.mp hm with hm | hm
  · exact hhere name hm
  · obtain rfl := List.mem_singleton.mp hm
    exact ⟨⟨hplain.1, hstep⟩, hplain.2⟩

/-- A walk from a tidy place along plain names ends in one. -/
theorem walk_tidy (hhere : TidyPlace here) (hsteps : ∀ step ∈ steps, step ≠ [] ∧ slash ∉ step)
    (h : d.walk follow links here steps = .ok place) : TidyPlace place := by
  have hnext (step : Bytes) (steps : List Bytes) (hsteps : ∀ s ∈ step :: steps, s ≠ [] ∧ slash ∉ s) :
      ∀ s ∈ steps, s ≠ [] ∧ slash ∉ s := fun s hm ↦ hsteps s (List.mem_cons_of_mem step hm)
  fun_induction walk d follow links here steps with
  | case2 | case3 | case7 | case9 | case13 => cases h
  | case1 =>
    cases h
    exact hhere
  | case6 links here step hlong hd hdot =>
    rw [← Except.ok.inj h]
    exact tidyPlace_concat hhere (hsteps step List.mem_cons_self) hdot
  | case8 links here step steps hlong hd hdot =>
    rw [← Except.ok.inj h]
    exact tidyPlace_concat hhere (hsteps step List.mem_cons_self) hdot
  | case12 links here step hlong hd hdot =>
    rw [← Except.ok.inj h]
    exact tidyPlace_concat hhere (hsteps step List.mem_cons_self) hdot
  | case4 links here steps hd hlong ih => exact ih hhere (hnext _ _ hsteps) h
  | case5 links here steps hd hlong hdot ih =>
    exact ih (fun name hm ↦ hhere name ((List.dropLast_sublist here).subset hm)) (hnext _ _ hsteps) h
  | case10 here step steps hlong hd hdot hdot' next target hget hlast links ih =>
    refine ih ?_ (fun name hm ↦ ?_) h
    · split
      · nofun
      · exact hhere
    · rcases List.mem_append.mp hm with hm | hm
      · exact stepsOf_plain target hm
      · exact hnext _ _ hsteps name hm
  | case11 links here step steps hlong hd hdot hdot' next hget ih =>
    exact ih (tidyPlace_concat hhere (hsteps step List.mem_cons_self) hdot) (hnext _ _ hsteps) h

theorem undotted_stepsOf (p : Path) :
    undotted (stepsOf p) = p.steps ++ if p.namesDirectory then [dot] else [] := by
  rw [undotted_eq, stepsOf, namesDirectory, List.filter_append, ← Path.steps]
  cases p.endsInSlash with
  | true => simp
  | false => simp

theorem place?_congr {p q : Path} (h : p.sameText q) (hd : p.namesDirectory = q.namesDirectory) :
    d.place? cwd p = d.place? cwd q := by
  obtain ⟨habsolute, hhere, hsteps⟩ := sameText_iff.mp h
  have hzero : 0 ∈ p.bytes ↔ 0 ∈ q.bytes := by
    rw [mem_bytes_iff (by decide) (by decide), mem_bytes_iff (by decide) (by decide), hsteps]
  have hempty : p.bytes = [] ↔ q.bytes = [] := by
    rw [bytes_eq_nil_iff, bytes_eq_nil_iff, habsolute, hhere, hsteps]
  have hwalk : (d.walk true linkLimit (start cwd p) (stepsOf p)).toOption =
      (d.walk true linkLimit (start cwd q) (stepsOf q)).toOption := by
    rw [walk_undotted, walk_undotted d true linkLimit (start cwd q), undotted_stepsOf,
      undotted_stepsOf, hsteps, hd, start, start, habsolute]
  rw [start, start] at hwalk
  simp only [place?, List.contains_eq_mem, decide_eq_true_eq, hzero, hempty, hwalk]

theorem place?_eq_some {p : Path} (h : d.place? cwd p = some place) :
    d.walk true linkLimit (start cwd p) (stepsOf p) = .ok place ∧ ∃ e, d.get? place = some e := by
  rw [place?] at h
  split at h
  · cases h
  · obtain ⟨hw, hget⟩ := Option.filter_eq_some_iff.mp h
    refine ⟨?_, Option.isSome_iff_exists.mp hget⟩
    rw [start]
    cases hr : d.walk true linkLimit (if p.isAbsolute then [] else cwd) (stepsOf p) with
    | error errno =>
      rw [hr] at hw
      cases hw
    | ok found =>
      rw [hr] at hw
      exact congrArg Except.ok (Option.some.inj hw)

theorem place?_tidy {p : Path} (hcwd : TidyPlace cwd) (h : d.place? cwd p = some place) :
    TidyPlace place := by
  have hstart : TidyPlace (start cwd p) := by
    rw [start]
    split
    · nofun
    · exact hcwd
  exact walk_tidy hstart (fun _ ↦ stepsOf_plain p) (place?_eq_some h).1

/-- What stands at a path is found by its place, if the path is not too long. -/
theorem find_eq_ok_iff {p : Path} {e : Entry} : d.find cwd p = .ok (place, e) ↔
    p.bytes.length < pathLimit ∧ d.place? cwd p = some place ∧ d.get? place = some e := by
  rw [find, locate, place?]
  simp only [List.contains_eq_mem, decide_eq_true_eq]
  by_cases hzero : 0 ∈ p.bytes
  · simp [hzero, bind, Except.bind]
  by_cases hempty : p.bytes = []
  · simp [hempty, bind, Except.bind]
  by_cases hlong : pathLimit ≤ p.bytes.length
  · simp [hzero, hempty, hlong, Nat.not_lt.mpr hlong, bind, Except.bind]
  simp only [hzero, hempty, hlong, Nat.not_le.mp hlong, if_false, or_self, true_and]
  cases d.walk true linkLimit (if p.isAbsolute then [] else cwd) (stepsOf p) with
  | error errno =>
    refine iff_of_false (fun h ↦ ?_) fun h ↦ ?_
    · cases h
    · cases h.1
  | ok found =>
    have hlocated : (Except.ok found : Except Errno Place).mapError IoError.system = .ok found := rfl
    have hsome : (Except.ok found : Except Errno Place).toOption = some found := rfl
    rw [hlocated, hsome]
    cases hget : d.get? found with
    | none =>
      refine iff_of_false (fun h ↦ ?_) fun h ↦ ?_
      · simp only [bind, Except.bind, hget] at h
        cases h
      · simp only [Option.filter_some, hget, Option.isSome_none, Bool.false_eq_true, if_false] at h
        cases h.1
    | some entry =>
      simp only [bind, Except.bind, pure, Except.pure, hget, Option.filter_some, Option.isSome_some, if_true,
        Except.ok.injEq, Prod.mk.injEq, Option.some.injEq]
      constructor
      · rintro ⟨rfl, rfl⟩
        exact ⟨rfl, hget⟩
      · rintro ⟨rfl, he⟩
        exact ⟨rfl, Option.some.inj (hget.symm.trans he)⟩

theorem find_tooLong {p : Path} (hzero : 0 ∉ p.bytes) (hlong : pathLimit ≤ p.bytes.length) :
    d.find cwd p = .error (.system .nameTooLong) := by
  have hempty : p.bytes ≠ [] := by
    intro hnil
    simp [hnil, pathLimit] at hlong
  rw [find, locate]
  simp [hzero, hempty, hlong, bind, Except.bind]

theorem find_of_readText {p : Path} {text : String} (h : d.readText cwd p = .ok text) :
    ∃ place e, d.find cwd p = .ok (place, e) := by
  cases hf : d.find cwd p with
  | error e =>
    rw [readText, read, hf] at h
    cases h
  | ok found => exact ⟨found.1, found.2, rfl⟩

theorem pathOf_injective {place' : Place} (h : TidyPlace place) (h' : TidyPlace place')
    (hs : (pathOf place).sameText (pathOf place')) : place = place' := by
  have hsteps := (sameText_iff.mp hs).2.2
  rwa [(pathOf_spells h).steps_eq, (pathOf_spells h').steps_eq] at hsteps

/-- The files of a disk, seen from a tidy place. -/
theorem files_linked (d : Disk) (hcwd : TidyPlace cwd) :
    (d.files cwd).Linked fun p ↦ p.bytes.length < pathLimit where
  placed h := by
    obtain ⟨place, e, hf⟩ := find_of_readText h
    obtain ⟨-, hplace, -⟩ := find_eq_ok_iff.mp hf
    exact ⟨pathOf place, congrArg (Option.map pathOf) hplace⟩
  spelled h hd := congrArg (Option.map pathOf) (place?_congr h hd)
  found {p q text} h hread hlength := by
    obtain ⟨a, b, ha, hb, hab⟩ := h
    obtain ⟨place, hp, rfl⟩ := Option.map_eq_some_iff.mp ha
    obtain ⟨place', hq, rfl⟩ := Option.map_eq_some_iff.mp hb
    obtain rfl := pathOf_injective (place?_tidy hcwd hp) (place?_tidy hcwd hq) hab
    obtain ⟨found, e, hf⟩ := find_of_readText hread
    obtain ⟨-, hfound, hget⟩ := find_eq_ok_iff.mp hf
    obtain rfl : place = found := Option.some.inj (hq.symm.trans hfound)
    have hsame : d.find cwd p = d.find cwd q := (find_eq_ok_iff.mpr ⟨hlength, hp, hget⟩).trans hf.symm
    change d.readText cwd q = .ok text at hread
    change d.readText cwd p = .ok text
    rwa [readText, read, hsame]

end Places

end Host.Disk

end DebugSession
