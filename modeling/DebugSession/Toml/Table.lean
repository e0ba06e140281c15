/-!
TOML tables as a document builds them. A table remembers how it came about, because that decides
which later lines may still add to it.
-/

namespace DebugSession.Toml

/-- How a table came about. -/
inductive Origin where
  /-- By its own header, or as the whole document. -/
  | header
  /-- As a step of a longer header. -/
  | implied
  /-- As a step of a dotted key. -/
  | dotted
  | inline
  deriving DecidableEq, Repr

inductive Value where
  | text (s : String)
  | integer (n : Int)
  /-- The decimal `mantissa * 10 ^ exponent`. -/
  | decimal (mantissa : Int) (exponent : Int)
  /-- An infinity or a value that is not a number. -/
  | special
  | boolean (b : Bool)
  | moment
  | array (items : List Value)
  | table (origin : Origin) (entries : List (String × Value))
  /-- The tables that headers in double brackets add. -/
  | tables (items : List (List (String × Value)))
  deriving Repr

/-- Keys in the order of their first lines. -/
abbrev Entries := List (String × Value)

namespace Entries

def get? (t : Entries) (key : String) : Option Value :=
  (t.find? fun entry ↦ entry.1 = key).map (·.2)

/-- Replaces the value of a key that is there and appends one that is not. -/
def put (key : String) (v : Value) : Entries → Entries
  | [] => [(key, v)]
  | entry :: rest => if entry.1 = key then (key, v) :: rest else entry :: put key v rest

/-- Changes the table at the end of `path`, making the tables on the way that are not there yet. The
change is told the origin of the table it is given. `none` when a step is not a table that `path` may
enter. -/
def alterAt (viaKey : Bool) (change : Origin → Entries → Option Entries) :
    List String → Origin → Entries → Option Entries
  | [], origin, t => change origin t
  | key :: path, _, t =>
    match t.get? key with
    | none =>
      let made := if viaKey then Origin.dotted else Origin.implied
      (alterAt viaKey change path made []).map fun inner ↦ t.put key (.table made inner)
    | some (.table .inline _) => none
    | some (.table .header inner) =>
      if viaKey then none
      else (alterAt viaKey change path .header inner).map fun inner ↦ t.put key (.table .header inner)
    | some (.table made inner) =>
      (alterAt viaKey change path made inner).map fun inner ↦ t.put key (.table made inner)
    | some (.tables items) =>
      match items.reverse with
      | [] => none
      | last :: before =>
        (alterAt viaKey change path .header last).map fun inner ↦
          t.put key (.tables (before.reverse ++ [inner]))
    | some _ => none

/-- A key is new, and under a dotted path its table was made by dotted keys. -/
def insertNew (path : List String) (key : String) (v : Value) (origin : Origin) (t : Entries) :
    Option Entries :=
  if (origin = .dotted) = (path = []) then none
  else match t.get? key with
    | some _ => none
    | none => some (t.put key v)

/-- The line `path.key = v` in a table that was made by `origin`. -/
def assign (path : List String) (key : String) (v : Value) (origin : Origin) (t : Entries) :
    Option Entries :=
  alterAt true (insertNew path key v) path origin t

/-- The header `[path.key]`. A table that longer headers implied keeps what they put into it. -/
def openTable (path : List String) (key : String) (t : Entries) : Option Entries :=
  alterAt false (fun _ parent ↦
    match parent.get? key with
    | none => some (parent.put key (.table .header []))
    | some (.table .implied inner) => some (parent.put key (.table .header inner))
    | some _ => none) path .header t

/-- The header `[[path.key]]`. -/
def openElement (path : List String) (key : String) (t : Entries) : Option Entries :=
  alterAt false (fun _ parent ↦
    match parent.get? key with
    | none => some (parent.put key (.tables [[]]))
    | some (.tables items) => some (parent.put key (.tables (items ++ [[]])))
    | some _ => none) path .header t

end Entries

end DebugSession.Toml
