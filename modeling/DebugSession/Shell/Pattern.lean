import DebugSession.Text.Cut

/-!
Shell patterns: `*`, `?` and sets in brackets. Each character of a pattern says whether it was quoted,
and a quoted one stands for itself.
-/

namespace DebugSession.Shell

abbrev Pattern := List (Char × Bool)

namespace Pattern

/-- What stands between a bracket and the one that closes it, and what follows. A closing bracket
does not close right at the start. -/
def setBody : (first : Bool) → Pattern → Option (Pattern × Pattern)
  | _, [] => none
  | first, (c, quoted) :: p =>
    if c = ']' ∧ quoted = false ∧ first = false then some ([], p)
    else (setBody false p).map fun found ↦ ((c, quoted) :: found.1, found.2)

/-- A hyphen between two members makes a range of them. -/
def setHas (x : Char) : Pattern → Bool
  | [] => false
  | [(c, _)] => c = x
  | [(c, _), (d, _)] => c = x || d = x
  | (c, _) :: (d, quoted) :: (e, q) :: p =>
    if d = '-' ∧ quoted = false then (c ≤ x && x ≤ e) || setHas x p
    else c = x || setHas x ((d, quoted) :: (e, q) :: p)

/-- Whether the set that begins behind a bracket has `c`, and what follows the set. -/
def inSet? (c : Char) (p : Pattern) : Option (Bool × Pattern) :=
  let (negated, p) := match p with
    | ('!', false) :: p => (true, p)
    | p => (false, p)
  (setBody true p).map fun found ↦ (setHas c found.1 != negated, found.2)

/-- Whether the whole text fits the pattern. `fuel` bounds the steps through both. -/
def fits : (fuel : Nat) → Pattern → List Char → Bool
  | 0, _, _ => false
  | _ + 1, [], s => s = []
  | fuel + 1, ('*', false) :: p, s =>
    fits fuel p s || match s with
      | [] => false
      | _ :: s => fits fuel (('*', false) :: p) s
  | fuel + 1, ('?', false) :: p, _ :: s => fits fuel p s
  | fuel + 1, ('[', false) :: p, c :: s =>
    match inSet? c p with
    | some (found, p) => found && fits fuel p s
    | none => c = '[' && fits fuel p s
  | fuel + 1, (c, _) :: p, d :: s => c = d && fits fuel p s
  | _ + 1, _ :: _, [] => false

def matchesAll (p : Pattern) (s : List Char) : Bool := fits (p.length + s.length + 1) p s

def isMagic (p : Pattern) : Bool :=
  p.any fun c ↦ !c.2 && (c.1 = '*' || c.1 = '?' || c.1 = '[')

def text (p : Pattern) : String := String.ofList (p.map (·.1))

/-- `s` without the shortest or longest part at its front that fits. -/
def dropFront (p : Pattern) (long : Bool) (s : List Char) : List Char :=
  let sizes := List.range (s.length + 1)
  match (if long then sizes.reverse else sizes).find? fun n ↦ p.matchesAll (s.take n) with
  | some n => s.drop n
  | none => s

/-- `s` without the shortest or longest part at its end that fits. -/
def dropBack (p : Pattern) (long : Bool) (s : List Char) : List Char :=
  let sizes := List.range (s.length + 1)
  match (if long then sizes else sizes.reverse).find? fun n ↦ p.matchesAll (s.drop n) with
  | some n => s.take n
  | none => s

end Pattern

end DebugSession.Shell
