import DebugSession.Text.Blank
import DebugSession.Text.Quoted

/-!
A journal of calls and what can be asserted about it.
-/

namespace DebugSession.Rehearsal

/-- Entries in the order they were recorded. -/
structure Journal where
  entries : List String := []
  deriving DecidableEq, Repr

namespace Journal

def record (j : Journal) (entry : String) : Journal := ⟨j.entries ++ [entry]⟩

/-- How many entries begin with `lead`. -/
def count (j : Journal) (lead : String) : Nat :=
  (j.entries.filter (Text.startsWith · lead)).length

/-- Takes each expected entry at its first place behind the one before. What is missing is the first
expected entry that has no such place. -/
def missing? : (expected entries : List String) → Option String
  | [], _ => none
  | want :: expected, entries =>
    match entries.dropWhile (· ≠ want) with
    | [] => some want
    | _ :: rest => missing? expected rest

def inOrderMessage (want : String) (j : Journal) : String :=
  "Expected '" ++ want ++ "' (in order) in journal, got:\n" ++ Text.Quoted.list j.entries

/-- The expected entries are there in this order, others between them or not. -/
def assertInOrder (j : Journal) (expected : List String) : Except String Unit :=
  match missing? expected j.entries with
  | none => .ok ()
  | some want => .error (inOrderMessage want j)

def neverMessage (lead entry : String) (j : Journal) : String :=
  "Expected no '" ++ lead ++ "' calls, found '" ++ entry ++ "' in:\n" ++ Text.Quoted.list j.entries

/-- No entry begins with `lead`. -/
def assertNever (j : Journal) (lead : String) : Except String Unit :=
  match j.entries.find? (Text.startsWith · lead) with
  | none => .ok ()
  | some entry => .error (neverMessage lead entry j)

end Journal

end DebugSession.Rehearsal
