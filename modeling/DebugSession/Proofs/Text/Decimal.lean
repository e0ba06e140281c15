import DebugSession.Text.Decimal
import Mathlib.Data.List.Induction
import Mathlib.Data.Nat.Digits.Defs

/-!
Decimal numbers by place value. Reading gives the number that digits stand for, zeros in front of it or not,
and printing gives digits for it.
-/

namespace DebugSession.Decimal

/-- What one digit stands for. -/
def digit (c : Char) : Nat := c.toNat - '0'.toNat

/-- What digits stand for: the last one for ones, the one before it for tens, and so on. -/
def number (ds : List Char) : Nat := Nat.ofDigits 10 (ds.map digit).reverse

theorem value_eq_number (ds : List Char) : value ds = number ds := by
  induction ds using List.reverseRecOn with
  | nil => rfl
  | append_singleton ds d ih =>
    have hlast : value (ds ++ [d]) = 10 * value ds + digit d := by
      rw [value, Nat.ofDigitChars_append, Nat.ofDigitChars_cons, Nat.ofDigitChars_nil]
      rfl
    rw [hlast, ih, number, number, List.map_append, List.reverse_append, List.map_singleton,
      List.reverse_singleton, List.singleton_append, Nat.ofDigits_cons, Nat.add_comm]

theorem read?_eq_some_iff {ds : List Char} {n : Nat} :
    read? ds = some n ↔ ds ≠ [] ∧ (∀ d ∈ ds, d.isDigit) ∧ number ds = n := by
  rw [read?, value_eq_number]
  simp [and_assoc]

theorem isDigit_of_mem_digits {n : Nat} {c : Char} (h : c ∈ digits n) : c.isDigit :=
  Nat.isDigit_of_mem_toDigits (by decide) (by decide) h

theorem number_digits (n : Nat) : number (digits n) = n := by
  rw [← value_eq_number]
  exact Nat.ofDigitChars_toDigits (by decide) (by decide)

theorem digits_ne_nil (n : Nat) : digits n ≠ [] := Nat.toDigits_ne_nil

end DebugSession.Decimal
