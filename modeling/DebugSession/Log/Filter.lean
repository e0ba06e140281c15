import DebugSession.Log.Event
import DebugSession.Text.Blank

/-!
Which events are shown. A filter is a list of directives, separated by commas: a level, the name of a
part, or `part=level`. The longest part name that begins an event's own decides about the event.
-/

namespace DebugSession.Log

/-- `rank` 0 lets nothing through. -/
structure Directive where
  /-- `none` stands for every part. -/
  target : Option String
  rank : Nat
  deriving DecidableEq, Repr

inductive Rule where
  | applies (d : Directive)
  /-- A directive on spans, of which a session has none. -/
  | idle
  deriving DecidableEq, Repr

def lowerCase (s : String) : String := String.ofList (s.toList.map Char.toLower)

/-- A level by name in any case, `off`, or a digit from 0 to 5. -/
def readRank? (s : String) : Option Nat :=
  match Decimal.read? s.toList with
  | some n => if n ≤ 5 then some n else none
  | none =>
    if lowerCase s = "off" then some 0 else (LogLevel.ofName? (lowerCase s)).map (·.rank)

/-- The longest run before the first `c`, and what follows `c` if it is there. -/
def cutFirst (c : Char) (s : List Char) : List Char × Option (List Char) :=
  match s.dropWhile (· ≠ c) with
  | [] => (s, none)
  | _ :: rest => (s.takeWhile (· ≠ c), some rest)

def startsName (c : Char) : Bool := c.isAlphanum || 0x80 ≤ c.toNat || c = '-' || c = ':' || c = '_'

/-- A part without a level lets all of its events through. -/
def readRule? (text : String) : Option Rule :=
  let s := (Text.trim text).toList
  match s with
  | [] => none
  | '[' :: rest => if rest.contains ']' then some .idle else none
  | c :: _ =>
    if !startsName c then none
    else match cutFirst '=' s with
      | (_, none) =>
        if s.contains '[' then (if s.contains ']' then some .idle else none)
        else match readRank? (String.ofList s) with
          | some rank => some (.applies ⟨none, rank⟩)
          | none => some (.applies ⟨some (String.ofList s), LogLevel.trace.rank⟩)
      | (name, some level) =>
        if name.contains '[' then some .idle
        else if level = [] then some (.applies ⟨some (String.ofList name), LogLevel.trace.rank⟩)
        else (readRank? (String.ofList level)).map fun rank ↦
          .applies ⟨some (String.ofList name), rank⟩

/-- A text without any directive shows errors only. -/
def readFilter? (text : String) : Option (List Rule) :=
  let parts := ((Text.cutAt (· = ',') text.toList).filter (· ≠ [])).map String.ofList
  if parts = [] then some [.applies ⟨none, LogLevel.error.rank⟩]
  else parts.mapM readRule?

/-- How specific a directive is for events of `target`, or `none` if it is not about them. -/
def Directive.weight? (d : Directive) (target : String) : Option Nat :=
  match d.target with
  | none => some 0
  | some name => if Text.startsWith target name then some (name.toList.length + 1) else none

/-- The most specific directive on `target`, the later one of two equals. -/
def best? (rules : List Rule) (target : String) : Option Directive :=
  (rules.foldl (fun best rule ↦
    match rule with
    | .idle => best
    | .applies d =>
      match d.weight? target with
      | none => best
      | some w =>
        match best with
        | some (w', _) => if w' ≤ w then some (w, d) else best
        | none => some (w, d)) none).map (·.2)

def shows (rules : List Rule) (e : Event) : Bool :=
  match best? rules e.target with
  | some d => e.level.rank ≤ d.rank
  | none => false

/-- The filter text rules if it is there and well-formed, else the level. -/
def rules (filter : Option Bytes) (level : LogLevel) : List Rule :=
  match (filter.bind Utf8.decode?).bind readFilter? with
  | some rules => rules
  | none => [.applies ⟨none, level.rank⟩]

end DebugSession.Log
