import DebugSession.Proofs.Config.Keys

/-!
Loading a configuration file that says only part of a configuration. Of a document the entries of known keys
count, in any order, and they count one by one.
-/

namespace DebugSession

/-- The file at a path is a document with table `t`. -/
structure Files.HasDocument (files : Files) (path : Path) (t : Toml.Entries) : Prop where
  present : files.isPresent path
  document : ∃ text, files.readText path = .ok text ∧ Toml.document? text = some t

namespace Config

open Toml

variable {files files' : Files} {path path' : Path} {t t' : Entries} {c : Config} {key : Key} {v : Value}

/-- The entries that count. -/
def known (t : Entries) : Entries := t.filter fun entry ↦ Key.all.any (·.name = entry.1)

theorem get?_known (t : Entries) (key : Key) : Entries.get? (known t) key.name = t.get? key.name := by
  induction t with
  | nil => rfl
  | cons entry t ih =>
    rw [Entries.get?_cons, known, List.filter_cons]
    split
    next => rw [Entries.get?_cons, ← ih, known]
    next h =>
      have hne : entry.1 ≠ key.name := by
        rintro he
        refine h (List.any_eq_true.mpr ⟨key, ?_, by simp [he]⟩)
        cases key <;> decide
      rw [if_neg hne, ← ih, known]

theorem nodup_known (h : t.keys.Nodup) : (Entries.keys (known t)).Nodup :=
  h.sublist (List.filter_sublist.map Prod.fst)

theorem nodup_keys_of_document (h : files.HasDocument path t) : t.keys.Nodup := by
  obtain ⟨text, -, hdocument⟩ := h.document
  exact nodup_keys_document hdocument

theorem ofTable_congr (h : ∀ key : Key, t'.get? key.name = t.get? key.name) : ofTable t' = ofTable t := by
  have h₁ : t'.get? "interpreter" = t.get? "interpreter" := h .interpreter
  have h₂ : t'.get? "syntax_check_args" = t.get? "syntax_check_args" := h .syntaxCheckArgs
  have h₃ : t'.get? "run_args" = t.get? "run_args" := h .runArgs
  have h₄ : t'.get? "rc_file" = t.get? "rc_file" := h .rcFile
  have h₅ : t'.get? "validation_timeout" = t.get? "validation_timeout" := h .validationTimeout
  have h₆ : t'.get? "connect_timeout" = t.get? "connect_timeout" := h .connectTimeout
  simp only [ofTable, field, h₁, h₂, h₃, h₄, h₅, h₆]

theorem load_document (h : files.HasDocument path t) :
    (load files path).1 = (ofTable t).mapError .config := by
  obtain ⟨text, hread, hdocument⟩ := h.document
  rw [load, h.present, hread]
  simp only [Bool.not_true, Bool.false_eq_true, if_false, ofText, hdocument]
  cases ofTable t <;> rfl

theorem load_eq_ok_iff (h : files.HasDocument path t) : (load files path).1 = .ok c ↔
    ∀ key : Key, c.value? key = (t.get? key.name).or (({} : Config).value? key) := by
  rw [← ofTable_eq_ok_iff, load_document h]
  cases ofTable t with
  | error e => exact ⟨(by cases ·), (by cases ·)⟩
  | ok found => exact ⟨fun hc ↦ Except.ok.inj hc ▸ rfl, fun hc ↦ Except.ok.inj hc ▸ rfl⟩

theorem exists_load_iff (h : files.HasDocument path t) : (∃ c, (load files path).1 = .ok c) ↔
    ∀ (key : Key) (v : Value), t.get? key.name = some v → key.Fits v := by
  rw [← exists_ofTable_iff]
  simp only [load_eq_ok_iff h, ofTable_eq_ok_iff]

theorem name_injective {key other : Key} (h : key.name = other.name) : key = other := by
  revert h
  cases key <;> cases other <;> decide

/-- Documents with the same entries that count, whatever their order and whatever else is in them. -/
theorem load_of_perm (h : files.HasDocument path t) (h' : files'.HasDocument path' t')
    (hperm : (known t').Perm (known t)) : (load files' path').1 = (load files path).1 := by
  rw [load_document h, load_document h', ofTable_congr fun key ↦ ?_]
  rw [← get?_known t, ← get?_known t',
    Entries.get?_of_perm hperm (nodup_known (nodup_keys_of_document h))]

/-- Documents of which one has one more entry that counts. -/
theorem load_of_perm_cons (h : files.HasDocument path t) (h' : files'.HasDocument path' t')
    (hperm : (known t').Perm ((key.name, v) :: known t)) (hfits : key.Fits v)
    (hload : (load files path).1 = .ok c) : ∃ c', (load files' path').1 = .ok c' ∧
      c'.value? key = some v ∧ ∀ other, other ≠ key → c'.value? other = c.value? other := by
  have hdistinct : (Entries.keys ((key.name, v) :: known t)).Nodup :=
    (hperm.map Prod.fst).nodup_iff.mp (nodup_known (nodup_keys_of_document h'))
  have hget (other : Key) : t'.get? other.name = if other = key then some v else t.get? other.name := by
    rw [← get?_known t', Entries.get?_of_perm hperm hdistinct, Entries.get?_cons, get?_known]
    by_cases hother : other = key
    · rw [hother, if_pos rfl, if_pos rfl]
    · rw [if_neg fun hname ↦ hother (name_injective hname.symm), if_neg hother]
  have hvalues := (load_eq_ok_iff h).mp hload
  obtain ⟨c', hload'⟩ := (exists_load_iff h').mpr fun other w hw ↦ by
    rw [hget] at hw
    split at hw
    next hother =>
      cases hw
      rw [hother]
      exact hfits
    next => exact (exists_load_iff h).mp ⟨c, hload⟩ other w hw
  have hvalues' := (load_eq_ok_iff h').mp hload'
  refine ⟨c', hload', ?_, fun other hother ↦ ?_⟩
  · rw [hvalues', hget, if_pos rfl, Option.some_or]
  · rw [hvalues', hvalues, hget, if_neg hother]

/-- A file that is a document. It can be used just if every key that counts is absent or has a value of its
shape, and gives each such key the value under it or the standard one. So neither the order of entries
matters nor what stands under other keys, one more entry shows in its own value alone, and no file, an empty
one and one without any key that counts are the same. -/
theorem load_fills_in (h : files.HasDocument path t) :
    ((∃ c, (load files path).1 = .ok c) ↔
      ∀ (key : Key) (v : Value), t.get? key.name = some v → key.Fits v) ∧
    (∀ c, (load files path).1 = .ok c →
      ∀ key : Key, c.value? key = (t.get? key.name).or (({} : Config).value? key)) ∧
    (∀ files' path' t', files'.HasDocument path' t' → (known t').Perm (known t) →
      (load files' path').1 = (load files path).1) ∧
    (∀ files' path' t' key v c, files'.HasDocument path' t' →
      (known t').Perm ((Key.name key, v) :: known t) → key.Fits v → (load files path).1 = .ok c →
      ∃ c', (load files' path').1 = .ok c' ∧ c'.value? key = some v ∧
        ∀ other, other ≠ key → c'.value? other = c.value? other) ∧
    ((∀ key : Key, t.get? key.name = none) → (load files path).1 = .ok {}) ∧
    (∀ files' path', files'.isPresent path' = false → (load files' path').1 = .ok {}) ∧
    ∀ files' path', files'.isPresent path' = true → files'.readText path' = .ok "" →
      (load files' path').1 = .ok {} := by
  have hstandard (files : Files) (path : Path) (t : Entries) (h : files.HasDocument path t)
      (hnone : ∀ key : Key, t.get? key.name = none) : (load files path).1 = .ok {} := by
    rw [load_eq_ok_iff h]
    intro key
    rw [hnone, Option.none_or]
  refine ⟨exists_load_iff h, fun c hload ↦ (load_eq_ok_iff h).mp hload,
    fun _ _ _ h' hperm ↦ load_of_perm h h' hperm,
    fun _ _ _ _ _ _ h' hperm hfits hload ↦ load_of_perm_cons h h' hperm hfits hload,
    hstandard files path t h, fun files' path' habsent ↦ ?_, fun files' path' hpresent hread ↦ ?_⟩
  · rw [load, habsent]
    rfl
  · exact hstandard files' path' [] ⟨hpresent, "", hread, rfl⟩ fun _ ↦ rfl

/-- A known name inside a table of its own, and a key that does not count with a value of any kind. -/
theorem load_fills_in_some :
    let files : Files := {
      currentDir := .error .sinkFull
      isPresent := fun _ ↦ true
      readText := fun _ ↦ .ok "colour = 1979-05-27\nrun_args = ['-X', \"\\t\"]\n[rc]\nrc_file = 7\n"
      canonical? := fun _ ↦ none }
    let t : Entries := [("colour", .moment), ("run_args", .array [.text "-X", .text "	"]),
      ("rc", .table .header [("rc_file", .integer 7)])]
    files.HasDocument (.ofText "c") t ∧ ∃ c, (load files (.ofText "c")).1 = .ok c ∧
      c.value? .runArgs = some (.array [.text "-X", .text "	"]) ∧
      c.value? .rcFile = some (.text ".steplinerc") := by
  intro files t
  have h : files.HasDocument (.ofText "c") t := ⟨rfl, _, rfl, rfl⟩
  obtain ⟨hloads, hvalues, -⟩ := load_fills_in h
  obtain ⟨c, hc⟩ := hloads.mpr fun key v hv ↦ by
    cases key with
    | runArgs => exact ⟨["-X", "	"], (Option.some.inj hv).symm⟩
    | interpreter | syntaxCheckArgs | rcFile | validationTimeout | connectTimeout => cases hv
  exact ⟨h, c, hc, hvalues c hc .runArgs, hvalues c hc .rcFile⟩

end Config

end DebugSession
