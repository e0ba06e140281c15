import DebugSession.Toml.Document

/-!
What a line of a document does to the document's table. It alters the value of one key and looks at no
other, so that keys stay distinct, none is ever lost, and lines about some keys are read the same in a table
that has other ones already.
-/

namespace DebugSession.Toml

namespace Entries

variable {t t' before : Entries} {key other : String} {v : Value}

def keys (t : Entries) : List String := t.map Prod.fst

theorem get?_cons (entry : String × Value) (t : Entries) (key : String) :
    get? (entry :: t) key = if entry.1 = key then some entry.2 else get? t key := by
  by_cases h : entry.1 = key <;> simp [get?, h]

theorem get?_eq_none_iff : get? t key = none ↔ key ∉ keys t := by
  simp [get?, keys]
  grind

theorem mem_of_get?_eq_some (h : get? t key = some v) : (key, v) ∈ t := by
  obtain ⟨entry, hfind, rfl⟩ := Option.map_eq_some_iff.mp h
  have hkey : entry.1 = key := by simpa using List.find?_some hfind
  rw [← hkey]
  exact List.mem_of_find?_eq_some hfind

theorem mem_keys_of_mem (h : (key, v) ∈ t) : key ∈ keys t :=
  List.mem_map_of_mem h

theorem get?_eq_some_iff (hdistinct : (keys t).Nodup) : get? t key = some v ↔ (key, v) ∈ t := by
  refine ⟨mem_of_get?_eq_some, fun hm ↦ ?_⟩
  induction t with
  | nil => cases hm
  | cons entry t ih =>
    rw [keys, List.map_cons, List.nodup_cons] at hdistinct
    rw [get?_cons]
    obtain rfl | hm := List.mem_cons.mp hm
    · exact if_pos rfl
    · rw [if_neg fun h ↦ hdistinct.1 (by rw [h]; exact mem_keys_of_mem hm)]
      exact ih hdistinct.2 hm

theorem get?_of_perm (h : t'.Perm t) (hdistinct : (keys t).Nodup) (key : String) :
    get? t' key = get? t key := by
  have hdistinct' : (keys t').Nodup := (h.map Prod.fst).nodup_iff.mpr hdistinct
  refine Option.ext fun v ↦ ?_
  rw [get?_eq_some_iff hdistinct, get?_eq_some_iff hdistinct', h.mem_iff]

theorem get?_append (before t : Entries) (key : String) :
    get? (before ++ t) key = (get? before key).or (get? t key) := by
  rw [get?, List.find?_append, Option.map_or, get?, get?]

theorem keys_put (key : String) (v : Value) (t : Entries) :
    keys (put key v t) = if key ∈ keys t then keys t else keys t ++ [key] := by
  induction t with
  | nil => rfl
  | cons entry t ih =>
    by_cases h : entry.1 = key
    · simp [put, keys, h]
    · have hne : key ≠ entry.1 := fun he ↦ h he.symm
      have hcons (t : Entries) : keys (entry :: t) = entry.1 :: keys t := rfl
      rw [put, if_neg h, hcons, hcons, ih]
      split <;> simp [*]

theorem put_append (h : key ∉ keys before) (v : Value) (t : Entries) :
    put key v (before ++ t) = before ++ put key v t := by
  induction before with
  | nil => rfl
  | cons entry before ih =>
    rw [keys, List.map_cons, List.mem_cons, not_or] at h
    rw [List.cons_append, put, if_neg fun he ↦ h.1 he.symm, ih h.2, List.cons_append]

/-- A change that makes a new value of a key from its value so far. -/
def Touches (change : Entries → Option Entries) (key : String) : Prop :=
  ∃ next : Option Value → Option Value, ∀ t, change t = (next (t.get? key)).map fun v ↦ t.put key v

theorem Touches.keys_eq {change : Entries → Option Entries} (h : Touches change key)
    (hc : change t = some t') : keys t' = if key ∈ keys t then keys t else keys t ++ [key] := by
  obtain ⟨next, hnext⟩ := h
  rw [hnext] at hc
  obtain ⟨v, -, rfl⟩ := Option.map_eq_some_iff.mp hc
  exact keys_put key v t

theorem Touches.append {change : Entries → Option Entries} (h : Touches change key)
    (hkey : key ∉ keys before) (t : Entries) :
    change (before ++ t) = (change t).map (before ++ ·) := by
  obtain ⟨next, hnext⟩ := h
  rw [hnext, hnext, get?_append, get?_eq_none_iff.mpr hkey, Option.none_or]
  cases next (t.get? key) with
  | none => rfl
  | some v => exact congrArg some (put_append hkey v t)

/-- The table behind a step of a path, changed by `inside`; `none` is one that is not there yet. -/
def entered (viaKey : Bool) (inside : Origin → Entries → Option Entries) : Option Value → Option Value
  | none =>
    let made := if viaKey then Origin.dotted else Origin.implied
    (inside made []).map (.table made ·)
  | some (.table .inline _) => none
  | some (.table .header inner) => if viaKey then none else (inside .header inner).map (.table .header ·)
  | some (.table made inner) => (inside made inner).map (.table made ·)
  | some (.tables items) =>
    match items.reverse with
    | [] => none
    | last :: before => (inside .header last).map fun inner ↦ .tables (before.reverse ++ [inner])
  | some _ => none

theorem touches_alterAt (viaKey : Bool) (change : Origin → Entries → Option Entries) (key : String)
    (path : List String) (origin : Origin) :
    Touches (alterAt viaKey change (key :: path) origin) key := by
  refine ⟨entered viaKey (alterAt viaKey change path), fun t ↦ ?_⟩
  rw [alterAt]
  rcases t.get? key with _ | v
  · simp only [entered, Option.map_map]
    rfl
  · cases v with
    | table origin inner =>
      cases origin with
      | inline => rfl
      | header =>
        simp only [entered]
        split
        · rfl
        · simp only [Option.map_map]
          rfl
      | implied | dotted =>
        simp only [entered, Option.map_map]
        rfl
    | tables items =>
      simp only [entered]
      rcases items.reverse with _ | ⟨last, before⟩
      · rfl
      · simp only [Option.map_map]
        rfl
    | text | integer | decimal | special | boolean | moment | array => rfl

theorem touches_insertNew (path : List String) (key : String) (v : Value) (origin : Origin) :
    Touches (insertNew path key v origin) key := by
  refine ⟨fun
    | none => if (origin = .dotted) = (path = []) then none else some v
    | some _ => none, fun t ↦ ?_⟩
  rw [insertNew]
  rcases t.get? key with _ | v
  · dsimp only
    split <;> rfl
  · exact ite_self none

theorem touches_assign (path : List String) (key : String) (v : Value) (origin : Origin) :
    ∃ first, Touches (assign path key v origin) first := by
  cases path with
  | nil => exact ⟨key, touches_insertNew [] key v origin⟩
  | cons first path => exact ⟨first, touches_alterAt true _ first path origin⟩

/-- What a header makes of the table that it opens. -/
def opened : Option Value → Option Value
  | none => some (.table .header [])
  | some (.table .implied inner) => some (.table .header inner)
  | some _ => none

/-- What a header in double brackets makes of the tables that it adds one to. -/
def extended : Option Value → Option Value
  | none => some (.tables [[]])
  | some (.tables items) => some (.tables (items ++ [[]]))
  | some _ => none

theorem touches_openTable (path : List String) (key : String) :
    ∃ first, Touches (openTable path key) first := by
  cases path with
  | cons first path => exact ⟨first, touches_alterAt false _ first path .header⟩
  | nil =>
    refine ⟨key, opened, fun t ↦ ?_⟩
    rw [openTable, alterAt]
    rcases t.get? key with _ | v
    · rfl
    · cases v with
      | table origin inner => cases origin <;> rfl
      | text | integer | decimal | special | boolean | moment | array | tables => rfl

theorem touches_openElement (path : List String) (key : String) :
    ∃ first, Touches (openElement path key) first := by
  cases path with
  | cons first path => exact ⟨first, touches_alterAt false _ first path .header⟩
  | nil =>
    refine ⟨key, extended, fun t ↦ ?_⟩
    rw [openElement, alterAt]
    rcases t.get? key with _ | v
    · rfl
    · cases v with
      | tables items => rfl
      | text | integer | decimal | special | boolean | moment | array | table => rfl

end Entries

open Entries

variable {d d' d'' : Draft} {root before : Entries} {here : List String} {cs rest rest' : List Char}
  {n m : Nat}

theorem touches_draft_assign (here path : List String) (key : String) (v : Value) :
    ∃ change first, Touches change first ∧
      ∀ root, Draft.assign ⟨root, here⟩ path key v = (change root).map fun root ↦ ⟨root, here⟩ := by
  cases here with
  | nil =>
    obtain ⟨first, h⟩ := touches_assign path key v .header
    exact ⟨_, first, h, fun _ ↦ rfl⟩
  | cons first here =>
    exact ⟨_, first, touches_alterAt false (fun origin t ↦ t.assign path key v origin) first here .header,
      fun _ ↦ rfl⟩

/-- What a line says does not hang on the table so far, only whether it may say so. -/
theorem touches_statement (here : List String) (cs : List Char) :
    (∀ root, statement ⟨root, here⟩ cs = none) ∨
    ∃ change key here' rest, Touches change key ∧
      ∀ root, statement ⟨root, here⟩ cs = (change root).map fun root ↦ (⟨root, here'⟩, rest) := by
  unfold statement
  split
  next rest =>
    split
    next path key rest _ =>
      split
      next rest _ =>
        obtain ⟨first, h⟩ := touches_openElement path key
        refine .inr ⟨_, first, path ++ [key], rest, h, fun root ↦ ?_⟩
        rw [Draft.openElement, Option.map_map]
        rfl
      next => exact .inl fun _ ↦ rfl
    next => exact .inl fun _ ↦ rfl
  next rest =>
    split
    next path key rest _ =>
      split
      next rest _ =>
        obtain ⟨first, h⟩ := touches_openTable path key
        refine .inr ⟨_, first, path ++ [key], rest, h, fun root ↦ ?_⟩
        rw [Draft.openTable, Option.map_map]
        rfl
      next => exact .inl fun _ ↦ rfl
    next => exact .inl fun _ ↦ rfl
  next =>
    split
    next path key v rest _ =>
      obtain ⟨change, first, h, hassign⟩ := touches_draft_assign here path key v
      refine .inr ⟨change, first, here, rest, h, fun root ↦ ?_⟩
      rw [hassign, Option.map_map]
      rfl
    next => exact .inl fun _ ↦ rfl

/-- The key that a line is about is there behind it, and so are those from before. -/
theorem keys_statement (h : statement d cs = some (d', rest)) :
    ∃ key, keys d'.root = if key ∈ keys d.root then keys d.root else keys d.root ++ [key] := by
  obtain ⟨root, here⟩ := d
  obtain hnone | ⟨change, key, here', rest', hkey, htells⟩ := touches_statement here cs
  · cases (hnone root).symm.trans h
  · rw [htells] at h
    obtain ⟨root', hroot, hd⟩ := Option.map_eq_some_iff.mp h
    cases hd
    exact ⟨key, hkey.keys_eq hroot⟩

theorem subset_keys_statement (h : statement d cs = some (d', rest)) : keys d.root ⊆ keys d'.root := by
  obtain ⟨key, hkeys⟩ := keys_statement h
  rw [hkeys]
  split
  · exact List.Subset.refl _
  · exact List.subset_append_left _ _

theorem nodup_keys_statement (h : statement d cs = some (d', rest)) (hdistinct : (keys d.root).Nodup) :
    (keys d'.root).Nodup := by
  obtain ⟨key, hkeys⟩ := keys_statement h
  rw [hkeys]
  split
  next => exact hdistinct
  next hnew =>
    rw [List.nodup_append, List.nodup_cons]
    refine ⟨hdistinct, ⟨List.not_mem_nil, List.nodup_nil⟩, fun k hk k' hk' ↦ ?_⟩
    rintro rfl
    exact hnew (List.mem_singleton.mp hk' ▸ hk)

theorem statement_append (h : statement d cs = some (d', rest))
    (hbefore : ∀ key ∈ keys before, key ∉ keys d'.root) :
    statement ⟨before ++ d.root, d.here⟩ cs = some (⟨before ++ d'.root, d'.here⟩, rest) := by
  obtain ⟨root, here⟩ := d
  obtain hnone | ⟨change, key, here', rest', hkey, htells⟩ := touches_statement here cs
  · cases (hnone root).symm.trans h
  · rw [htells] at h ⊢
    obtain ⟨root', hroot, hd⟩ := Option.map_eq_some_iff.mp h
    cases hd
    have hmem : key ∈ keys root' := by
      rw [hkey.keys_eq hroot]
      split
      next hm => exact hm
      next => simp
    rw [hkey.append (fun hm ↦ hbefore key hm hmem), hroot]
    rfl

/-- Lines that are read one after the other, at most `n` of them. -/
inductive Lines : Nat → Draft → List Char → Draft → Prop
  | done {n : Nat} {d : Draft} {cs : List Char} : skipGap cs = [] → Lines (n + 1) d cs d
  | last {n : Nat} {d d' : Draft} {cs rest : List Char} : skipGap cs ≠ [] →
      statement d (skipGap cs) = some (d', rest) → skipComment (skipSpace rest) = [] →
      Lines (n + 1) d cs d'
  | more {n : Nat} {d d' d'' : Draft} {cs rest rest' : List Char} : skipGap cs ≠ [] →
      statement d (skipGap cs) = some (d', rest) → newline? (skipComment (skipSpace rest)) = some rest' →
      Lines n d' rest' d'' → Lines (n + 1) d cs d''

theorem statements_iff : statements n d cs = some d' ↔ Lines n d cs d' := by
  constructor
  · intro h
    induction n generalizing d cs with
    | zero => cases h
    | succ n ih =>
      rw [statements] at h
      split at h
      next hgap =>
        cases h
        exact .done hgap
      next hgap =>
        split at h
        · cases h
        next d' rest hline =>
          split at h
          next hend =>
            cases h
            exact .last hgap hline hend
          next =>
            split at h
            next hnewline => exact .more hgap hline hnewline (ih h)
            next => cases h
  · intro h
    induction h with
    | done hgap => simp only [statements, hgap]
    | last hgap hline hend => simp only [statements, hline, hend]
    | more hgap hline hnewline _ ih =>
      simp only [statements, hline]
      split
      next hend =>
        rw [hend] at hnewline
        cases hnewline
      next =>
        rw [hnewline]
        exact ih

theorem Lines.subset_keys (h : Lines n d cs d') : keys d.root ⊆ keys d'.root := by
  induction h with
  | done => exact List.Subset.refl _
  | last _ hline => exact subset_keys_statement hline
  | more _ hline _ _ ih => exact List.Subset.trans (subset_keys_statement hline) ih

theorem Lines.nodup_keys (h : Lines n d cs d') (hdistinct : (keys d.root).Nodup) :
    (keys d'.root).Nodup := by
  induction h with
  | done => exact hdistinct
  | last _ hline => exact nodup_keys_statement hline hdistinct
  | more _ hline _ _ ih => exact ih (nodup_keys_statement hline hdistinct)

/-- The same lines below others that are about other keys, with as many lines to go or more. -/
theorem Lines.append (h : Lines n d cs d') (hbefore : ∀ key ∈ keys before, key ∉ keys d'.root)
    (hm : n ≤ m) : Lines m ⟨before ++ d.root, d.here⟩ cs ⟨before ++ d'.root, d'.here⟩ := by
  obtain ⟨m, rfl⟩ : ∃ m', m = m' + 1 := ⟨m - 1, by cases h <;> omega⟩
  induction h generalizing m with
  | done hgap => exact .done hgap
  | last hgap hline hend => exact .last hgap (statement_append hline hbefore) hend
  | @more n d d' d'' cs rest rest' hgap hline hnewline hlines ih =>
    obtain ⟨m, rfl⟩ : ∃ m', m = m' + 1 := ⟨m - 1, by cases hlines <;> omega⟩
    have hbetween : ∀ key ∈ keys before, key ∉ keys d'.root :=
      fun key hm hk ↦ hbefore key hm (hlines.subset_keys hk)
    exact .more hgap (statement_append hline hbetween) hnewline (ih hbefore m (by omega))

/-- The keys of a document are distinct. -/
theorem nodup_keys_document {s : String} {t : Entries} (h : document? s = some t) : (keys t).Nodup := by
  obtain ⟨d, hlines, rfl⟩ := Option.map_eq_some_iff.mp h
  exact (statements_iff.mp hlines).nodup_keys List.nodup_nil

end DebugSession.Toml
