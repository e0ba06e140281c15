/-!
Decimal numbers as text: a printer without leading zeros and a reader that allows them.
-/

namespace DebugSession.Decimal

def digits (n : Nat) : List Char := Nat.toDigits 10 n

def text (n : Nat) : String := String.ofList (digits n)

def intText : Int → String
  | .ofNat n => text n
  | .negSucc n => "-" ++ text (n + 1)

def value (ds : List Char) : Nat :=
  Nat.ofDigitChars 10 ds 0

/-- Reads one or more ASCII digits and nothing else. -/
def read? (ds : List Char) : Option Nat :=
  if ds ≠ [] ∧ ds.all Char.isDigit then some (value ds) else none

end DebugSession.Decimal
