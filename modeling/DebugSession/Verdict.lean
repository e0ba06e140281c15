import DebugSession.Duration

/-!
What a check of a script can find, and how the wait for it ends.
-/

namespace DebugSession

inductive Verdict where
  | passed
  | failed (status : Int) (output : String)
  | timedOut (after : Duration)
  deriving DecidableEq, Repr

/-- How a child ended. -/
inductive ChildEnd where
  | exited (status : UInt8)
  | killed (signal : Nat)
  deriving DecidableEq, Repr

namespace ChildEnd

def code? : ChildEnd → Option UInt8
  | .exited status => some status
  | .killed _ => none

def isSuccess (e : ChildEnd) : Bool := e.code? = some 0

/-- A child that a signal killed counts as status 1. -/
def status (e : ChildEnd) : Int := (e.code?.map fun s ↦ (s.toNat : Int)).getD 1

end ChildEnd

namespace Verdict

/-- The output matters only when the check failed. -/
def ofEnd (e : ChildEnd) (output : String) : Verdict :=
  if e.isSuccess then .passed else .failed e.status output

end Verdict

/-- The pause between two looks at a child, 20 ms. -/
def pollInterval : Nat := 20000000

/-- One look at a child and the nanoseconds gone by then. -/
structure Poll where
  ended? : Option ChildEnd
  elapsed : Nat
  deriving DecidableEq, Repr

/-- Looks at a child until it has ended or the time gone exceeds `limit`; the look comes before the
clock. `none` when `looks` does not reach that far. -/
def awaitEnd (limit : Duration) (look : Nat → Poll) : (looks : Nat) → (round : Nat) →
    Option (Option ChildEnd)
  | 0, _ => none
  | looks + 1, round =>
    match (look round).ended? with
    | some e => some (some e)
    | none =>
      if limit.toNanos < (look round).elapsed then some none
      else awaitEnd limit look looks (round + 1)

/-- Enough looks for a clock that advances by at least one pause from each to the next. -/
def Duration.looks (limit : Duration) : Nat := limit.toNanos / pollInterval + 2

end DebugSession
