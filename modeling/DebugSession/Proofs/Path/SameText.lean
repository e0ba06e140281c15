import DebugSession.Proofs.Path.Join

/-!
Paths that are the same by their text. Their steps agree, and so does every octet that is not in a separator
or a `.`; a slash or a `.` at the end is not told by the text, but two joins with one name have it alike.
-/

namespace DebugSession.Path

variable {p q name : Path}

theorem sameText_iff : p.sameText q ↔
    p.isAbsolute = q.isAbsolute ∧ p.startsHere = q.startsHere ∧ p.steps = q.steps := by
  simp only [sameText, Bool.and_eq_true, decide_eq_true_eq, and_assoc]

theorem sameText_refl (p : Path) : p.sameText p := sameText_iff.mpr ⟨rfl, rfl, rfl⟩

theorem mem_splitOn_iff {b : UInt8} (hb : b ≠ slash) (bs : Bytes) :
    b ∈ bs ↔ ∃ piece ∈ bs.splitOn slash, b ∈ piece := by
  induction bs with
  | nil => simp
  | cons c bs ih =>
    rw [List.splitOn_cons_eq_if_modifyHead, List.mem_cons, ih]
    split
    next hc =>
      have hne : b ≠ c := fun h ↦ hb (h.trans (beq_iff_eq.mp hc))
      simp [hne]
    next =>
      obtain ⟨piece, rest, hs⟩ := List.exists_cons_of_ne_nil (List.splitOn_ne_nil slash bs)
      rw [hs, List.modifyHead_cons]
      simp [or_assoc]

theorem mem_bytes_iff {b : UInt8} (hb : b ≠ slash) (hb' : b ∉ dot) :
    b ∈ p.bytes ↔ ∃ step ∈ p.steps, b ∈ step := by
  rw [mem_splitOn_iff hb, steps, names_eq, pieces]
  constructor
  · rintro ⟨piece, hp, hm⟩
    have hne : piece ≠ [] := List.ne_nil_of_mem hm
    have hne' : piece ≠ dot := fun h ↦ hb' (h ▸ hm)
    exact ⟨piece, by simp [hp, hne, hne'], hm⟩
  · rintro ⟨step, hs, hm⟩
    exact ⟨step, (List.mem_filter.mp (List.mem_filter.mp hs).1).1, hm⟩

theorem names_ne_nil (h : p.isAbsolute = false) (hne : p.bytes ≠ []) : p.names ≠ [] := by
  obtain ⟨b, bs, hbytes⟩ := List.exists_cons_of_ne_nil hne
  have hb : b ≠ slash := by simpa [isAbsolute, hbytes] using h
  obtain ⟨piece, rest, hs⟩ := List.exists_cons_of_ne_nil (List.splitOn_ne_nil slash bs)
  rw [names_eq, pieces, hbytes, List.splitOn_cons_eq_if_modifyHead, if_neg (by simpa using hb), hs]
  simp

theorem bytes_eq_nil_iff :
    p.bytes = [] ↔ p.isAbsolute = false ∧ p.startsHere = false ∧ p.steps = [] := by
  constructor
  · intro h
    obtain ⟨bs⟩ := p
    obtain rfl : bs = [] := h
    exact ⟨rfl, rfl, rfl⟩
  · rintro ⟨habsolute, hhere, hsteps⟩
    by_cases hne : p.bytes = []
    · exact hne
    -- A relative path has a first name, and without steps that is `.`.
    obtain ⟨first, rest, hnames⟩ := List.exists_cons_of_ne_nil (names_ne_nil habsolute hne)
    rw [steps, hnames] at hsteps
    by_cases hdot : first = dot
    · simp [startsHere, habsolute, hnames, hdot] at hhere
    · simp [hdot] at hsteps

/-- Paths that end in a slash or in `.` ask for a directory. -/
def namesDirectory (p : Path) : Bool := p.endsInSlash || p.names.getLast? = some dot

theorem endsInSlash_join (h : name.isAbsolute = false) (hne : name.bytes ≠ []) (p : Path) :
    (p.join name).endsInSlash = name.endsInSlash := by
  obtain ⟨b, bs, hbytes⟩ := List.exists_cons_of_ne_nil hne
  rw [join, if_neg (by simp [h])]
  split
  · simp [endsInSlash, hbytes, List.getLast?_append]
  · simp [endsInSlash, hbytes, List.getLast?_append]

theorem namesDirectory_join_nil (h : name.bytes = []) (p : Path) :
    (p.join name).namesDirectory = !(p.join name).bytes.isEmpty := by
  obtain ⟨bs⟩ := name
  obtain rfl : bs = [] := h
  rw [join, if_neg (by decide)]
  split
  next hp =>
    rw [List.append_nil]
    obtain hnil | hend := hp
    · rw [hnil]
      rfl
    · have hne : p.bytes ≠ [] := by
        intro hnil
        simp [endsInSlash, hnil] at hend
      simp [namesDirectory, hend, hne]
  next => simp [namesDirectory, endsInSlash]

theorem namesDirectory_join (h : (p.join name).sameText (q.join name)) :
    (p.join name).namesDirectory = (q.join name).namesDirectory := by
  cases habsolute : name.isAbsolute with
  | true => rw [join_absolute habsolute, join_absolute habsolute]
  | false =>
    by_cases hempty : name.bytes = []
    · obtain ⟨hroot, hhere, hsteps⟩ := sameText_iff.mp h
      have hnil : (p.join name).bytes = [] ↔ (q.join name).bytes = [] := by
        rw [bytes_eq_nil_iff, bytes_eq_nil_iff, hroot, hhere, hsteps]
      rw [namesDirectory_join_nil hempty, namesDirectory_join_nil hempty, Bool.eq_iff_iff]
      simpa using not_congr hnil
    · have hlast (dir : Path) : (dir.join name).names.getLast? = name.names.getLast? := by
        rw [names_join habsolute, List.getLast?_append,
          List.getLast?_eq_some_getLast (names_ne_nil habsolute hempty), Option.some_or]
      rw [namesDirectory, namesDirectory, endsInSlash_join habsolute hempty,
        endsInSlash_join habsolute hempty, hlast, hlast]

end DebugSession.Path
