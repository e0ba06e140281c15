import DebugSession.Shell.Pattern
import DebugSession.Shell.Process

/-!
From expanded words to fields: splitting at blanks and matching against file names.
-/

namespace DebugSession.Shell

/-- A piece of an expanded word. -/
inductive Atom where
  | plain (c : Char)
  /-- From an expansion outside of quotes, so a blank ends a field. -/
  | expanded (c : Char)
  | quoted (c : Char)
  /-- Ends a field between two arguments. -/
  | cut
  /-- Makes a field even if nothing is in it. -/
  | hold
  deriving DecidableEq, Repr

namespace Atom

def ofText (s : String) (quoted : Bool) : List Atom :=
  if quoted then .hold :: s.toList.map .quoted else s.toList.map .plain

def ofValue (s : String) (quoted : Bool) : List Atom :=
  if quoted then .hold :: s.toList.map .quoted else s.toList.map .expanded

/-- Text that an expansion gave, so that blanks in it end fields. -/
def expand : Atom → Atom
  | .plain c => .expanded c
  | a => a

/-- The pattern that a word means as a whole. -/
def pattern (atoms : List Atom) : Pattern :=
  atoms.filterMap fun a ↦
    match a with
    | .plain c => some (c, false)
    | .expanded c => some (c, false)
    | .quoted c => some (c, true)
    | .cut => some (' ', true)
    | .hold => none

def text (atoms : List Atom) : String := (pattern atoms).text

/-- The field being made, newest character first, once anything belongs to it. -/
structure Splitter where
  done : List Pattern := []
  current : Option Pattern := none

def Splitter.close (s : Splitter) : Splitter :=
  match s.current with
  | none => s
  | some p => ⟨p.reverse :: s.done, none⟩

def Splitter.add (s : Splitter) (c : Char) (quoted : Bool) : Splitter :=
  { s with current := some ((c, quoted) :: s.current.getD []) }

/-- Separators that are no blanks end even an empty field. -/
def Splitter.step (separators : List Char) (s : Splitter) (a : Atom) : Splitter :=
  match a with
  | .plain c => s.add c false
  | .quoted c => s.add c true
  | .hold => { s with current := some (s.current.getD []) }
  | .cut => s.close
  | .expanded c =>
    if separators.contains c then
      if c = ' ' ∨ c = '\t' ∨ c = '\n' then s.close
      else { s with current := some (s.current.getD []) }.close
    else s.add c false

def fields (separators : List Char) (atoms : List Atom) : List Pattern :=
  (atoms.foldl (Splitter.step separators) {}).close.done.reverse

end Atom

/-- The places that the steps of a pattern lead to, each with the text that leads there. -/
def matchSteps (d : Host.Disk) : List Pattern → String × Host.Place → List (String × Host.Place)
  | [], found => [found]
  | step :: steps, (shown, here) =>
    let join (name : String) : String := shown ++ name ++ (if steps.isEmpty then "" else "/")
    if step = [] then matchSteps d steps (join "", here)
    else if !step.isMagic then
      match d.walk true Host.Disk.linkLimit here [toBytes step.text] with
      | .ok next =>
        if (d.get? next).isSome then matchSteps d steps (join step.text, next) else []
      | .error _ => []
    else
      ((d.namesIn here).map octets).flatMap fun name ↦
        let hidden := name.toList.head? = some '.' && step.head? ≠ some ('.', false)
        if !hidden && step.matchesAll name.toList then
          match d.walk true Host.Disk.linkLimit here [toBytes name] with
          | .ok next => matchSteps d steps (join name, next)
          | .error _ => []
        else []

/-- The file names that a field matches, or the field itself when there are none. -/
def fileNames (d : Host.Disk) (cwd : Host.Place) (field : Pattern) : List String :=
  if !field.isMagic then [field.text]
  else
    let steps := Text.cutAt (fun c ↦ c.1 = '/') field
    let start : Host.Place := if field.head?.any (·.1 = '/') then [] else cwd
    match (matchSteps d steps ("", start)).map (·.1) with
    | [] => [field.text]
    | names => names

end DebugSession.Shell
