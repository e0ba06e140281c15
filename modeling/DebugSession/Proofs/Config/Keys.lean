import DebugSession.Config
import DebugSession.Proofs.Toml.Table

/-!
A configuration by its keys. Each key of a document gives its own value or the standard one, whatever
stands under the other keys, and only a value that has not the key's shape makes a document unusable.
-/

namespace DebugSession.Config

open Toml

inductive Key where
  | interpreter
  | syntaxCheckArgs
  | runArgs
  | rcFile
  | validationTimeout
  | connectTimeout
  deriving DecidableEq, Repr

def Key.name : Key → String
  | .interpreter => "interpreter"
  | .syntaxCheckArgs => "syntax_check_args"
  | .runArgs => "run_args"
  | .rcFile => "rc_file"
  | .validationTimeout => "validation_timeout"
  | .connectTimeout => "connect_timeout"

def Key.all : List Key :=
  [.interpreter, .syntaxCheckArgs, .runArgs, .rcFile, .validationTimeout, .connectTimeout]

/-- The values that a key may have: a text, an array of texts, or an integer of 64 bits without a sign. -/
def Key.Fits (v : Value) : Key → Prop
  | .interpreter | .rcFile => ∃ s, v = .text s
  | .syntaxCheckArgs | .runArgs => ∃ items : List String, v = .array (items.map .text)
  | .validationTimeout | .connectTimeout => ∃ n : Nat, n < UInt64.size ∧ v = .integer n

/-- What stands under a key in a document that says all of a configuration. -/
def value? (c : Config) : Key → Option Value
  | .interpreter => some (.text c.interpreter)
  | .syntaxCheckArgs => some (.array (c.syntaxCheckArgs.map .text))
  | .runArgs => some (.array (c.runArgs.map .text))
  | .rcFile => some (.text c.rcFile)
  | .validationTimeout => c.validationTimeout.map fun n ↦ .integer n.toNat
  | .connectTimeout => some (.integer c.connectTimeout.toNat)

section Shapes

variable {v : Value}

theorem text?_eq_some_iff {s : String} : v.text? = some s ↔ some (.text s) = some v := by
  cases v <;> simp [Value.text?, eq_comm]

theorem mapM_text?_eq_some_iff {vs : List Value} {items : List String} :
    vs.mapM Value.text? = some items ↔ items.map .text = vs := by
  induction vs generalizing items with
  | nil => simp [eq_comm]
  | cons v vs ih =>
    have hcons : (v :: vs).mapM Value.text? = some items ↔
        ∃ s rest, v.text? = some s ∧ vs.mapM Value.text? = some rest ∧ s :: rest = items := by
      simp [List.mapM_cons, Option.bind_eq_some_iff]
    rw [hcons]
    constructor
    · rintro ⟨s, rest, hs, hrest, rfl⟩
      rw [List.map_cons, ih.mp hrest, Option.some.inj (text?_eq_some_iff.mp hs)]
    · intro h
      cases items with
      | nil => cases h
      | cons s rest =>
        rw [List.map_cons, List.cons.injEq] at h
        exact ⟨s, rest, text?_eq_some_iff.mpr (congrArg some h.1), ih.mpr h.2, rfl⟩

theorem texts?_eq_some_iff {items : List String} :
    v.texts? = some items ↔ some (.array (items.map .text)) = some v := by
  cases v <;> simp [Value.texts?, mapM_text?_eq_some_iff]

theorem count?_eq_some_iff {n : UInt64} : v.count? = some n ↔ some (.integer n.toNat) = some v := by
  rw [Option.some_inj]
  constructor
  · intro h
    rw [Value.count?.eq_def] at h
    split at h
    next m =>
      split at h
      next hm =>
        cases h
        rw [UInt64.toNat_ofNat_of_lt' hm]
        rfl
      next => cases h
    next => cases h
  · rintro rfl
    have hlt : n.toNat < UInt64.size := n.toNat_lt_size
    exact (if_pos hlt).trans (by rw [UInt64.ofNat_toNat])

end Shapes

section Tables

variable {t t' : Entries} {c c' : Config} {key : Key} {v : Value}

theorem fits_iff : key.Fits v ↔ ∃ c : Config, c.value? key = some v := by
  cases key with
  | interpreter =>
    exact ⟨fun ⟨s, h⟩ ↦ ⟨{ interpreter := s }, congrArg some h.symm⟩,
      fun ⟨c, h⟩ ↦ ⟨c.interpreter, (Option.some.inj h).symm⟩⟩
  | syntaxCheckArgs =>
    exact ⟨fun ⟨items, h⟩ ↦ ⟨{ syntaxCheckArgs := items }, congrArg some h.symm⟩,
      fun ⟨c, h⟩ ↦ ⟨c.syntaxCheckArgs, (Option.some.inj h).symm⟩⟩
  | runArgs =>
    exact ⟨fun ⟨items, h⟩ ↦ ⟨{ runArgs := items }, congrArg some h.symm⟩,
      fun ⟨c, h⟩ ↦ ⟨c.runArgs, (Option.some.inj h).symm⟩⟩
  | rcFile =>
    exact ⟨fun ⟨s, h⟩ ↦ ⟨{ rcFile := s }, congrArg some h.symm⟩,
      fun ⟨c, h⟩ ↦ ⟨c.rcFile, (Option.some.inj h).symm⟩⟩
  | validationTimeout =>
    constructor
    · rintro ⟨n, hn, rfl⟩
      refine ⟨{ validationTimeout := some (.ofNat n) }, ?_⟩
      rw [value?, Option.map_some, UInt64.toNat_ofNat_of_lt' hn]
    · rintro ⟨c, h⟩
      obtain ⟨n, -, rfl⟩ := Option.map_eq_some_iff.mp h
      exact ⟨n.toNat, n.toNat_lt_size, rfl⟩
  | connectTimeout =>
    constructor
    · rintro ⟨n, hn, rfl⟩
      refine ⟨{ connectTimeout := .ofNat n }, ?_⟩
      rw [value?, UInt64.toNat_ofNat_of_lt' hn]
    · rintro ⟨c, h⟩
      exact ⟨c.connectTimeout.toNat, c.connectTimeout.toNat_lt_size, (Option.some.inj h).symm⟩

/-- A key gives the value under it or else `absent`, where `view` shows the values as they are written. -/
theorem field_eq_ok_iff {α : Type} {shape : Value → Option α} {absent a : α} {name : String}
    (view : α → Option Value) (hview : ∀ v a, shape v = some a ↔ view a = some v)
    (hinj : ∀ a b, view a = view b → a = b) :
    field t name shape absent = .ok a ↔ view a = (t.get? name).or (view absent) := by
  rw [field]
  cases t.get? name with
  | none =>
    rw [Option.none_or, Except.ok.injEq]
    exact ⟨fun h ↦ by rw [h], fun h ↦ (hinj a absent h).symm⟩
  | some v =>
    rw [Option.some_or, ← hview]
    dsimp only
    cases shape v with
    | none => simp
    | some b => simp

theorem bind_eq_ok_iff {α β : Type} {x : Except ConfigError α} {f : α → Except ConfigError β} {b : β} :
    (x >>= f) = .ok b ↔ ∃ a, x = .ok a ∧ f a = .ok b := by
  cases x <;> simp [bind, Except.bind]

theorem ofTable_fields : ofTable t = .ok c ↔
    field t "interpreter" Value.text? standardInterpreter = .ok c.interpreter ∧
    field t "syntax_check_args" Value.texts? standardSyntaxCheckArgs = .ok c.syntaxCheckArgs ∧
    field t "run_args" Value.texts? [] = .ok c.runArgs ∧
    field t "rc_file" Value.text? standardRcFile = .ok c.rcFile ∧
    field t "validation_timeout" (fun v ↦ v.count?.map some) none = .ok c.validationTimeout ∧
    field t "connect_timeout" Value.count? standardConnectTimeout = .ok c.connectTimeout := by
  simp only [ofTable, bind_eq_ok_iff]
  constructor
  · rintro ⟨_, h₁, _, h₂, _, h₃, _, h₄, _, h₅, _, h₆, hc⟩
    cases hc
    exact ⟨h₁, h₂, h₃, h₄, h₅, h₆⟩
  · rintro ⟨h₁, h₂, h₃, h₄, h₅, h₆⟩
    exact ⟨_, h₁, _, h₂, _, h₃, _, h₄, _, h₅, _, h₆, rfl⟩

theorem map_text_injective {items items' : List String}
    (h : some (Value.array (items.map .text)) = some (Value.array (items'.map .text))) :
    items = items' :=
  (List.map_inj_right fun _ _ h ↦ Value.text.inj h).mp (Value.array.inj (Option.some.inj h))

theorem count_injective {n n' : UInt64}
    (h : some (Value.integer n.toNat) = some (Value.integer n'.toNat)) : n = n' := by
  have hcast := Value.integer.inj (Option.some.inj h)
  exact UInt64.toNat_inj.mp (by omega)

/-- The one statement about all keys: each has the value under it or the standard one. -/
theorem ofTable_eq_ok_iff : ofTable t = .ok c ↔
    ∀ key : Key, c.value? key = (t.get? key.name).or (({} : Config).value? key) := by
  have htext (s s' : String) (h : some (Value.text s) = some (Value.text s')) : s = s' :=
    Value.text.inj (Option.some.inj h)
  have hcount? (v : Value) (n : Option UInt64) : (v.count?.map some) = some n ↔
      (n.map fun n ↦ Value.integer n.toNat) = some v := by
    cases n with
    | none => simp
    | some n => simpa using count?_eq_some_iff
  have hcount (n n' : Option UInt64) (h : (n.map fun n ↦ Value.integer n.toNat) =
      n'.map fun n ↦ Value.integer n.toNat) : n = n' :=
    Option.map_injective (fun _ _ h ↦ count_injective (congrArg some h)) h
  rw [ofTable_fields, field_eq_ok_iff _ (fun _ _ ↦ text?_eq_some_iff) htext,
    field_eq_ok_iff _ (fun _ _ ↦ texts?_eq_some_iff) fun _ _ ↦ map_text_injective,
    field_eq_ok_iff _ (fun _ _ ↦ texts?_eq_some_iff) fun _ _ ↦ map_text_injective,
    field_eq_ok_iff _ (fun _ _ ↦ text?_eq_some_iff) htext, field_eq_ok_iff _ hcount? hcount,
    field_eq_ok_iff _ (fun _ _ ↦ count?_eq_some_iff) fun _ _ ↦ count_injective]
  constructor
  · rintro ⟨h₁, h₂, h₃, h₄, h₅, h₆⟩ key
    cases key with
    | interpreter => exact h₁
    | syntaxCheckArgs => exact h₂
    | runArgs => exact h₃
    | rcFile => exact h₄
    | validationTimeout => exact h₅
    | connectTimeout => exact h₆
  · intro h
    exact ⟨h .interpreter, h .syntaxCheckArgs, h .runArgs, h .rcFile, h .validationTimeout,
      h .connectTimeout⟩

theorem exists_ofTable_iff : (∃ c, ofTable t = .ok c) ↔
    ∀ (key : Key) (v : Value), t.get? key.name = some v → key.Fits v := by
  simp only [ofTable_eq_ok_iff]
  constructor
  · rintro ⟨c, h⟩ key v hv
    refine fits_iff.mpr ⟨c, ?_⟩
    rw [h, hv, Option.some_or]
  · intro h
    have heach (key : Key) :
        ∃ c : Config, c.value? key = (t.get? key.name).or (({} : Config).value? key) := by
      cases hv : t.get? key.name with
      | none => exact ⟨{}, rfl⟩
      | some v => exact fits_iff.mp (h key v hv)
    obtain ⟨c, hc⟩ := Classical.skolem.mp heach
    refine ⟨⟨(c .interpreter).interpreter, (c .syntaxCheckArgs).syntaxCheckArgs, (c .runArgs).runArgs,
      (c .rcFile).rcFile, (c .validationTimeout).validationTimeout,
      (c .connectTimeout).connectTimeout⟩, fun key ↦ ?_⟩
    cases key with
    | interpreter => exact hc .interpreter
    | syntaxCheckArgs => exact hc .syntaxCheckArgs
    | runArgs => exact hc .runArgs
    | rcFile => exact hc .rcFile
    | validationTimeout => exact hc .validationTimeout
    | connectTimeout => exact hc .connectTimeout

end Tables

end DebugSession.Config
