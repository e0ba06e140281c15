import DebugSession.Toml.Scalar

/-!
TOML documents: values that nest, and lines that fill a table.
-/

namespace DebugSession.Toml

/-- The values of an array up to its closing bracket. A comma may follow the last one. -/
def elements (value : Reader Value) : Nat → Reader (List Value)
  | 0, _ => none
  | fuel + 1, cs =>
    match skipGap cs with
    | ']' :: rest => some ([], rest)
    | cs =>
      match value cs with
      | none => none
      | some (v, rest) =>
        match skipGap rest with
        | ']' :: rest => some ([v], rest)
        | ',' :: rest => (elements value fuel rest).map fun found ↦ (v :: found.1, found.2)
        | _ => none

/-- `key = value` on one line. -/
def assignment (value : Reader Value) : Reader ((List String × String) × Value) := fun cs ↦
  match dottedKey cs with
  | none => none
  | some (key, rest) =>
    match skipSpace rest with
    | '=' :: rest => (value (skipSpace rest)).map fun found ↦ ((key, found.1), found.2)
    | _ => none

/-- The assignments of an inline table up to its closing brace. -/
def fields (value : Reader Value) : Nat → Entries → Reader Entries
  | 0, _, _ => none
  | fuel + 1, t, cs =>
    match skipGap cs with
    | '\x7d' :: rest => some (t, rest)
    | cs =>
      match assignment value cs with
      | none => none
      | some (((path, key), v), rest) =>
        match t.assign path key v .inline with
        | none => none
        | some t =>
          match skipGap rest with
          | '\x7d' :: rest => some (t, rest)
          | ',' :: rest => fields value fuel t rest
          | _ => none

/-- A value in which arrays and inline tables nest at most `depth` deep. -/
def value : (depth : Nat) → Reader Value
  | depth, cs =>
    match cs with
    | '[' :: rest =>
      match depth with
      | 0 => none
      | depth + 1 =>
        (elements (value depth) (rest.length + 1) rest).map fun found ↦ (.array found.1, found.2)
    | '\x7b' :: rest =>
      match depth with
      | 0 => none
      | depth + 1 =>
        (fields (value depth) (rest.length + 1) [] rest).map fun found ↦
          (.table .inline found.1, found.2)
    | '"' :: _ => (stringLexeme cs).map fun found ↦ (.text found.1, found.2)
    | '\'' :: _ => (stringLexeme cs).map fun found ↦ (.text found.1, found.2)
    | _ => scalar cs

/-- A document read up to some line: all its tables, and the header that later keys belong to. -/
structure Draft where
  root : Entries := []
  here : List String := []

namespace Draft

def openTable (d : Draft) (path : List String) (key : String) : Option Draft :=
  (d.root.openTable path key).map fun root ↦ ⟨root, path ++ [key]⟩

def openElement (d : Draft) (path : List String) (key : String) : Option Draft :=
  (d.root.openElement path key).map fun root ↦ ⟨root, path ++ [key]⟩

def assign (d : Draft) (path : List String) (key : String) (v : Value) : Option Draft :=
  (Entries.alterAt false (fun origin t ↦ t.assign path key v origin) d.here .header d.root).map
    fun root ↦ ⟨root, d.here⟩

end Draft

/-- What one line says, and the rest after it on the same line. -/
def statement (d : Draft) (cs : List Char) : Option (Draft × List Char) :=
  match cs with
  | '[' :: '[' :: rest =>
    match dottedKey (skipSpace rest) with
    | some ((path, key), rest) =>
      match skipSpace rest with
      | ']' :: ']' :: rest => (d.openElement path key).map (·, rest)
      | _ => none
    | none => none
  | '[' :: rest =>
    match dottedKey (skipSpace rest) with
    | some ((path, key), rest) =>
      match skipSpace rest with
      | ']' :: rest => (d.openTable path key).map (·, rest)
      | _ => none
    | none => none
  | _ =>
    match assignment (value nestingLimit) cs with
    | some (((path, key), v), rest) => (d.assign path key v).map (·, rest)
    | none => none

/-- One line after the other, each counted against `fuel`. -/
def statements : Nat → Draft → List Char → Option Draft
  | 0, _, _ => none
  | fuel + 1, d, cs =>
    match skipGap cs with
    | [] => some d
    | cs =>
      match statement d cs with
      | none => none
      | some (d, rest) =>
        match skipComment (skipSpace rest) with
        | [] => some d
        | rest =>
          match newline? rest with
          | some rest => statements fuel d rest
          | none => none

/-- The root table of a document. A byte order mark in front does not count. -/
def document? (s : String) : Option Entries :=
  let cs := match s.toList with
    | '\uFEFF' :: rest => rest
    | cs => cs
  (statements (cs.length + 1) {} cs).map (·.root)

end DebugSession.Toml
