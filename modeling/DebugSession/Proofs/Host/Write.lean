import DebugSession.Proofs.Host.Links

/-!
Writing a file. What is written to a path is read back from it, because a file or nothing at all gives way
to a file without a change to any walk that came to a place before.
-/

namespace DebugSession.Host.Disk

open DebugSession.Path

variable {d : Disk} {n m : Nat} {here between place q cwd : Place} {step : Bytes}
  {before steps : List Bytes} {e : Entry} {p : Path} {content : Bytes} {exec : Bool}

section Walks

/-- Names that are looked up in a directory. -/
structure IsName (step : Bytes) : Prop where
  short : step.length ≤ nameLimit
  ne_dot : step ≠ dot
  ne_dotDot : step ≠ dotDot

/-- A walk does not go on from here: there is nothing, or neither a directory nor a link. -/
def IsEnd (d : Disk) (place : Place) : Prop :=
  ∀ e, d.get? place = some e → e ≠ .directory ∧ ∀ target, e ≠ .link target

/-- A walk that comes to a place and follows at most so many links. -/
inductive Leads (d : Disk) : Nat → Place → List Bytes → Place → Prop
  | stay {n : Nat} {here : Place} : Leads d n here [] here
  | dot {n : Nat} {here place : Place} {steps : List Bytes} : d.get? here = some .directory →
      Leads d n here steps place → Leads d n here (Path.dot :: steps) place
  | dotDot {n : Nat} {here place : Place} {steps : List Bytes} : d.get? here = some .directory →
      Leads d n here.dropLast steps place → Leads d n here (Path.dotDot :: steps) place
  | into {n : Nat} {here place : Place} {step : Bytes} {steps : List Bytes} :
      d.get? here = some .directory → IsName step → d.get? (here ++ [step]) = some .directory →
      Leads d n (here ++ [step]) steps place → Leads d n here (step :: steps) place
  | link {n : Nat} {here place : Place} {step : Bytes} {steps : List Bytes} {target : Path} :
      d.get? here = some .directory → IsName step → d.get? (here ++ [step]) = some (.link target) →
      Leads d n (start here target) (stepsOf target ++ steps) place →
      Leads d (n + 1) here (step :: steps) place
  | last {n : Nat} {here : Place} {step : Bytes} : d.get? here = some .directory → IsName step →
      d.IsEnd (here ++ [step]) → Leads d n here [step] (here ++ [step])

theorem leads_of_walk (h : d.walk true n here steps = .ok place) : d.Leads n here steps place := by
  have hdirectory {here : Place} (hd : ¬ d.get? here ≠ some .directory) : d.get? here = some .directory :=
    Classical.not_not.mp hd
  fun_induction walk d true n here steps with
  | case2 | case3 | case7 | case9 | case13 => cases h
  | case1 =>
    cases h
    exact .stay
  | case4 n here steps hd hlong ih => exact .dot (hdirectory hd) (ih h)
  | case5 n here steps hd hlong hdot ih => exact .dotDot (hdirectory hd) (ih h)
  | case6 n here step hlong hd hdot hdotDot next hget =>
    obtain rfl := Except.ok.inj h
    exact .last (hdirectory hd) ⟨Nat.not_lt.mp hlong, hdot, hdotDot⟩ fun e he ↦ by cases hget.symm.trans he
  | case8 n here step steps hlong hd hdot hdotDot next target hget hlast => cases hlast.2
  | case10 here step steps hlong hd hdot hdotDot next target hget hlast n ih =>
    exact .link (hdirectory hd) ⟨Nat.not_lt.mp hlong, hdot, hdotDot⟩ hget (ih h)
  | case11 n here step steps hlong hd hdot hdotDot next hget ih =>
    exact .into (hdirectory hd) ⟨Nat.not_lt.mp hlong, hdot, hdotDot⟩ hget (ih h)
  | case12 n here step hlong hd hdot hdotDot next e hlink hdir hget =>
    obtain rfl := Except.ok.inj h
    refine .last (hdirectory hd) ⟨Nat.not_lt.mp hlong, hdot, hdotDot⟩ fun e' he ↦ ?_
    obtain rfl : e = e' := Option.some.inj (hget.symm.trans he)
    exact ⟨hdir, hlink⟩

theorem Leads.walk (h : d.Leads n here steps place) : d.walk true n here steps = .ok place := by
  induction h with
  | stay => rw [Disk.walk]
  | dot hd _ ih => rwa [walk_dot hd]
  | dotDot hd _ ih => rwa [walk_dotDot hd]
  | into hd hstep hget _ ih =>
    rw [Disk.walk]
    simpa [hd, Nat.not_lt.mpr hstep.short, hstep.ne_dot, hstep.ne_dotDot, hget] using ih
  | link hd hstep hget _ ih =>
    rw [start] at ih
    rw [Disk.walk]
    simpa [hd, Nat.not_lt.mpr hstep.short, hstep.ne_dot, hstep.ne_dotDot, hget] using ih
  | @last n here step hd hstep hend =>
    rw [Disk.walk]
    cases hget : d.get? (here ++ [step]) with
    | none => simp [hd, Nat.not_lt.mpr hstep.short, hstep.ne_dot, hstep.ne_dotDot, hget]
    | some e =>
      have hpassage := hend e hget
      cases e with
      | directory => exact (hpassage.1 rfl).elim
      | link target => exact (hpassage.2 target rfl).elim
      | file | tool | null =>
        simp [hd, Nat.not_lt.mpr hstep.short, hstep.ne_dot, hstep.ne_dotDot, hget]

theorem walk_eq_ok_iff : d.walk true n here steps = .ok place ↔ d.Leads n here steps place :=
  ⟨leads_of_walk, Leads.walk⟩

theorem Leads.mono (h : d.Leads n here steps place) (hn : n ≤ m) : d.Leads m here steps place := by
  induction h generalizing m with
  | stay => exact .stay
  | dot hd _ ih => exact .dot hd (ih hn)
  | dotDot hd _ ih => exact .dotDot hd (ih hn)
  | into hd hstep hget _ ih => exact .into hd hstep hget (ih hn)
  | link hd hstep hget _ ih =>
    obtain ⟨m, rfl⟩ : ∃ k, m = k + 1 := ⟨m - 1, by omega⟩
    exact .link hd hstep hget (ih (by omega))
  | last hd hstep hend => exact .last hd hstep hend

/-- Only from a directory does a walk go on. -/
theorem Leads.directory (h : d.Leads n here steps place) (hsteps : steps ≠ []) :
    d.get? here = some .directory := by
  cases h with
  | stay => exact (hsteps rfl).elim
  | dot hd | dotDot hd | into hd | link hd | last hd => exact hd

theorem Leads.append (h : d.Leads n here before between) (hrest : d.Leads m between steps place) :
    d.Leads (n + m) here (before ++ steps) place := by
  induction h with
  | stay => exact hrest.mono (Nat.le_add_left _ _)
  | dot hd _ ih => exact .dot hd (ih hrest)
  | dotDot hd _ ih => exact .dotDot hd (ih hrest)
  | into hd hstep hget _ ih => exact .into hd hstep hget (ih hrest)
  | link hd hstep hget _ ih =>
    have hon := ih hrest
    rw [List.append_assoc] at hon
    rw [Nat.add_right_comm]
    exact .link hd hstep hget hon
  | last hd hstep hend =>
    cases hrest with
    | stay => exact .last hd hstep hend
    | dot hd' | dotDot hd' | into hd' | link hd' | last hd' => exact ((hend _ hd').1 rfl).elim

theorem Leads.split {n : Nat} {here : Place} {all before : List Bytes} (h : d.Leads n here all place)
    (hall : all = before ++ steps) :
    ∃ between m, m ≤ n ∧ d.Leads n here before between ∧ d.Leads m between steps place := by
  -- By recursion on the walk, because an induction would ask about no steps in front in every case.
  cases before with
  | nil =>
    obtain rfl : all = steps := hall
    exact ⟨here, n, Nat.le_refl n, .stay, h⟩
  | cons first before =>
  cases h with
  | stay => cases hall
  | dot hd hrest =>
    obtain ⟨rfl, hrest'⟩ := List.cons.inj hall
    obtain ⟨between, m, hm, hbefore, hsteps⟩ := Leads.split hrest hrest'
    exact ⟨between, m, hm, .dot hd hbefore, hsteps⟩
  | dotDot hd hrest =>
    obtain ⟨rfl, hrest'⟩ := List.cons.inj hall
    obtain ⟨between, m, hm, hbefore, hsteps⟩ := Leads.split hrest hrest'
    exact ⟨between, m, hm, .dotDot hd hbefore, hsteps⟩
  | into hd hstep hget hrest =>
    obtain ⟨rfl, hrest'⟩ := List.cons.inj hall
    obtain ⟨between, m, hm, hbefore, hsteps⟩ := Leads.split hrest hrest'
    exact ⟨between, m, hm, .into hd hstep hget hbefore, hsteps⟩
  | @link n here place step rest target hd hstep hget hrest =>
    obtain ⟨rfl, rfl⟩ := List.cons.inj hall
    obtain ⟨between, m, hm, hbefore, hsteps⟩ := Leads.split hrest (List.append_assoc _ before steps).symm
    exact ⟨between, m, Nat.le_succ_of_le hm, .link hd hstep hget hbefore, hsteps⟩
  | last hd hstep hend =>
    obtain ⟨rfl, hrest'⟩ := List.cons.inj hall
    obtain ⟨rfl, rfl⟩ := List.append_eq_nil_iff.mp hrest'.symm
    exact ⟨_, n, Nat.le_refl n, .last hd hstep hend, .stay⟩

end Walks

section Entries

theorem find?_replaced (entries : List (Place × Entry)) (q place : Place) (e : Entry) :
    ((entries.map fun old ↦ if old.1 = q then (q, e) else old).find? fun old ↦ old.1 = place).map (·.2) =
      if place = q ∧ entries.any (·.1 = q) then some e
      else (entries.find? fun old ↦ old.1 = place).map (·.2) := by
  induction entries with
  | nil => simp
  | cons old entries ih =>
    simp only [List.map_cons, List.find?_cons, List.any_cons]
    by_cases hplace : old.1 = place
    · subst hplace
      by_cases hold : old.1 = q <;> simp [hold]
    · by_cases hold : old.1 = q
      · have hne : q ≠ place := hold ▸ hplace
        simp only [hold, hne, hne.symm, if_true, decide_false, ih, false_and]
      · simp only [hold, hplace, if_false, decide_false, ih, Bool.false_or]

theorem get?_put (hq : q ≠ []) (e : Entry) (place : Place) :
    (d.put q e).get? place = if place = q then some e else d.get? place := by
  rw [put, get?, get?]
  by_cases hplace : place = []
  · rw [if_pos hplace, if_pos hplace, if_neg fun h ↦ hq (h.symm.trans hplace)]
  rw [if_neg hplace, if_neg hplace]
  split
  next hthere =>
    rw [find?_replaced, hthere]
    simp
  next hnew =>
    rw [List.find?_append, List.find?_singleton]
    by_cases hsame : place = q
    · subst hsame
      have hnone : d.entries.find? (fun old ↦ old.1 = place) = none := by
        rw [List.any_eq_true] at hnew
        exact List.find?_eq_none.mpr fun old hm hold ↦ hnew ⟨old, hm, hold⟩
      simp [hnone]
    · simp [hsame, Ne.symm hsame]

theorem IsEnd.ne_nil (h : d.IsEnd q) : q ≠ [] := by
  rintro rfl
  exact (h .directory rfl).1 rfl

/-- A walk that came to a place still does. What stands at the end of it may be new. -/
theorem Leads.put (h : d.Leads n here steps place) (hq : d.IsEnd q) (he : ∀ target, e ≠ .link target) :
    (d.put q e).Leads n here steps place := by
  have hkept {other : Place} {e' : Entry} (hget : d.get? other = some e')
      (hpassage : e' = .directory ∨ ∃ target, e' = .link target) : (d.put q e).get? other = some e' := by
    rw [get?_put hq.ne_nil, if_neg ?_, hget]
    rintro rfl
    obtain rfl | ⟨target, rfl⟩ := hpassage
    · exact (hq _ hget).1 rfl
    · exact (hq _ hget).2 target rfl
  induction h with
  | stay => exact .stay
  | dot hd _ ih => exact .dot (hkept hd (.inl rfl)) ih
  | dotDot hd _ ih => exact .dotDot (hkept hd (.inl rfl)) ih
  | into hd hstep hget _ ih => exact .into (hkept hd (.inl rfl)) hstep (hkept hget (.inl rfl)) ih
  | @link n here place step steps target hd hstep hget _ ih =>
    exact .link (hkept hd (.inl rfl)) hstep (hkept hget (.inr ⟨target, rfl⟩)) ih
  | @last n here step hd hstep hend =>
    -- A directory that is new at the end is one more place to go into.
    by_cases hdirectory : (d.put q e).get? (here ++ [step]) = some .directory
    · exact .into (hkept hd (.inl rfl)) hstep hdirectory .stay
    · refine .last (hkept hd (.inl rfl)) hstep fun e' he' ↦ ⟨?_, fun target ↦ ?_⟩
      · rintro rfl
        exact hdirectory he'
      · rintro rfl
        rw [get?_put hq.ne_nil] at he'
        split at he'
        · exact he target (Option.some.inj he')
        · exact (hend _ he').2 target rfl

end Entries

section Files

/-- A file or nothing, so that a file may be written here. -/
def IsFree (d : Disk) (place : Place) : Prop :=
  ∀ e, d.get? place = some e → ∃ content exec, e = .file content exec

theorem IsFree.isEnd (h : d.IsFree place) : d.IsEnd place := by
  intro e he
  obtain ⟨content, exec, rfl⟩ := h e he
  exact ⟨nofun, nofun⟩

/-- A path that the system opens to write a file, and where the file will be. -/
structure Opens (d : Disk) (p : Path) (place : Place) : Prop where
  located : d.locate [] true p = .ok place
  free : d.IsFree place

theorem locate_eq_ok_iff : d.locate cwd true p = .ok place ↔
    0 ∉ p.bytes ∧ p.bytes ≠ [] ∧ p.bytes.length < pathLimit ∧
      d.Leads linkLimit (start cwd p) (stepsOf p) place := by
  rw [locate, ← walk_eq_ok_iff, start]
  simp only [List.contains_eq_mem, decide_eq_true_eq]
  by_cases hzero : 0 ∈ p.bytes
  · simp [hzero]
  by_cases hempty : p.bytes = []
  · simp [hempty]
  by_cases hlong : pathLimit ≤ p.bytes.length
  · simp [hzero, hempty, hlong, Nat.not_lt.mpr hlong]
  simp only [hzero, hempty, hlong, Nat.not_le.mp hlong, if_false, not_false_eq_true, ne_eq, true_and]
  cases d.walk true linkLimit (if p.isAbsolute then [] else cwd) (stepsOf p) with
  | error errno => exact ⟨(by cases ·), (by cases ·)⟩
  | ok found => exact ⟨fun hp ↦ Except.ok.inj hp ▸ rfl, fun hp ↦ Except.ok.inj hp ▸ rfl⟩

/-- A slash at the end of a path asks for a directory where its names lead. -/
theorem Leads.names (h : d.Leads n here (stepsOf p) place) : d.Leads n here p.names place := by
  rw [stepsOf] at h
  split at h
  next =>
    obtain ⟨between, m, -, hnames, hlast⟩ := Leads.split h rfl
    cases hlast with
    | dot _ hrest =>
      cases hrest
      exact hnames
    | into _ hstep | link _ hstep | last _ hstep => exact (hstep.ne_dot rfl).elim
  next => rwa [List.append_nil] at h

theorem Opens.leads (h : d.Opens p place) : d.Leads linkLimit [] p.names place ∧ p.names ≠ [] := by
  have hsteps := (locate_eq_ok_iff.mp h.located).2.2.2
  rw [start, ite_self] at hsteps
  have hleads := hsteps.names
  refine ⟨hleads, fun hnil ↦ ?_⟩
  rw [hnil] at hleads
  cases hleads
  exact h.free.isEnd.ne_nil rfl

theorem Opens.put (h : d.Opens p place) (hq : d.IsFree q) (content : Bytes) (exec : Bool) :
    (d.put q (.file content exec)).Opens p place where
  located := by
    obtain ⟨hzero, hempty, hlong, hsteps⟩ := locate_eq_ok_iff.mp h.located
    exact locate_eq_ok_iff.mpr ⟨hzero, hempty, hlong, hsteps.put hq.isEnd nofun⟩
  free := by
    intro e he
    rw [get?_put hq.isEnd.ne_nil] at he
    split at he
    · exact ⟨content, exec, (Option.some.inj he).symm⟩
    · exact h.free e he

end Files

section Names

variable {parent : Path} {name : Bytes}

/-- Names as they stand in paths. -/
structure IsPlain (name : Bytes) : Prop extends IsName name where
  ne_nil : name ≠ []
  slash_notMem : slash ∉ name
  zero_notMem : 0 ∉ name

instance (name : Bytes) : Decidable (IsPlain name) :=
  decidable_of_iff
    (name.length ≤ nameLimit ∧ name ≠ dot ∧ name ≠ dotDot ∧ name ≠ [] ∧ slash ∉ name ∧ 0 ∉ name)
    ⟨fun ⟨hshort, hdot, hdotDot, hnil, hslash, hzero⟩ ↦ ⟨⟨hshort, hdot, hdotDot⟩, hnil, hslash, hzero⟩,
      fun ⟨⟨hshort, hdot, hdotDot⟩, hnil, hslash, hzero⟩ ↦ ⟨hshort, hdot, hdotDot, hnil, hslash, hzero⟩⟩

theorem IsPlain.relative (h : IsPlain name) : Path.isAbsolute ⟨name⟩ = false := by
  obtain ⟨b, bs, rfl⟩ := List.exists_cons_of_ne_nil h.ne_nil
  have hb : b ≠ slash := fun he ↦ h.slash_notMem (he ▸ List.mem_cons_self)
  simpa [isAbsolute] using hb

theorem IsPlain.names_join (h : IsPlain name) (parent : Path) :
    (parent.join ⟨name⟩).names = parent.names ++ [name] := by
  rw [Path.names_join h.relative, Path.names_eq ⟨name⟩, pieces_plain h.slash_notMem]
  simp [h.ne_nil]

/-- A path that leads to a directory, and where the directory is. -/
structure IsDirectory (d : Disk) (p : Path) (here : Place) : Prop where
  leads : d.Leads linkLimit [] p.names here
  directory : d.get? here = some .directory

theorem IsDirectory.join (h : d.IsDirectory parent here) (hname : IsPlain name)
    (hget : d.get? (here ++ [name]) = some .directory) :
    d.IsDirectory (parent.join ⟨name⟩) (here ++ [name]) where
  leads := by
    rw [hname.names_join]
    exact h.leads.append (.into (n := 0) h.directory hname.toIsName hget .stay)
  directory := hget

theorem IsDirectory.put (h : d.IsDirectory p here) (hq : d.get? q = none) :
    (d.put q .directory).IsDirectory p here where
  leads := h.leads.put (fun e he ↦ by cases hq.symm.trans he) nofun
  directory := by
    have hne : q ≠ [] := by
      rintro rfl
      cases hq
    rw [get?_put hne, h.directory, ite_self]

end Names

end DebugSession.Host.Disk
