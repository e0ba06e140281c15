import DebugSession.Shell.Pattern

/-!
Basic regular expressions, as far as single characters, sets, stars and anchors go.
-/

namespace DebugSession.Shell.Search

inductive Unit where
  | char (c : Char)
  | any
  | set (negated : Bool) (members : Pattern)

def Unit.has (x : Char) : Unit → Bool
  | .char c => c = x
  | .any => true
  | .set negated members => Pattern.setHas x members != negated

structure Item where
  unit : Unit
  starred : Bool

structure Expression where
  atStart : Bool
  items : List Item
  atEnd : Bool

def starOf : List Char → Bool × List Char
  | '*' :: rest => (true, rest)
  | rest => (false, rest)

def unit (cs : List Char) : Option (Unit × List Char) :=
  match cs with
  | [] => none
  | '\\' :: c :: rest => some (.char c, rest)
  | '.' :: rest => some (.any, rest)
  | '[' :: rest =>
    let (negated, body) := match rest with
      | '^' :: body => (true, body)
      | body => (false, body)
    match Pattern.setBody true (body.map fun c ↦ (c, false)) with
    | some (members, after) => some (.set negated members, after.map (·.1))
    | none => some (.char '[', rest)
  | c :: rest => some (.char c, rest)

def items : (fuel : Nat) → List Char → List Item × Bool
  | 0, _ => ([], false)
  | _ + 1, [] => ([], false)
  | _ + 1, ['$'] => ([], true)
  | fuel + 1, cs =>
    match unit cs with
    | none => ([], false)
    | some (u, rest) =>
      let (starred, rest) := starOf rest
      let (more, atEnd) := items fuel rest
      (⟨u, starred⟩ :: more, atEnd)

def ofText (s : String) : Expression :=
  let (atStart, cs) := match s.toList with
    | '^' :: cs => (true, cs)
    | cs => (false, cs)
  let (found, atEnd) := items (cs.length + 1) cs
  ⟨atStart, found, atEnd⟩

/-- Whether the items fit right at the front of a text. -/
def fitsHere (atEnd : Bool) : (fuel : Nat) → List Item → List Char → Bool
  | 0, _, _ => false
  | _ + 1, [], s => !atEnd || s = []
  | fuel + 1, ⟨u, true⟩ :: more, s =>
    fitsHere atEnd fuel more s || match s with
      | c :: s => u.has c && fitsHere atEnd fuel (⟨u, true⟩ :: more) s
      | [] => false
  | fuel + 1, ⟨u, false⟩ :: more, c :: s => u.has c && fitsHere atEnd fuel more s
  | _ + 1, _ :: _, [] => false

def suffixes : List Char → List (List Char)
  | [] => [[]]
  | c :: s => (c :: s) :: suffixes s

def Expression.occursIn (e : Expression) (line : List Char) : Bool :=
  let fuel := e.items.length + line.length + 1
  if e.atStart then fitsHere e.atEnd fuel e.items line
  else (suffixes line).any fun s ↦ fitsHere e.atEnd fuel e.items s

end DebugSession.Shell.Search
