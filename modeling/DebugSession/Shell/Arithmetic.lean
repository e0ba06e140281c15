import DebugSession.Text.Blank
import DebugSession.Text.Decimal

/-!
Arithmetic expressions of a shell over integers of 64 bits. Evaluation goes along with reading: a
reader gives the value, the rest of the text, and the variables assigned on the way.
-/

namespace DebugSession.Shell.Arithmetic

def wrap (n : Int) : Int := Int.bmod n UInt64.size

/-- What is left to read and what was assigned. -/
structure Reading where
  rest : List Char
  assigned : List (String × Int) := []

def isNameChar (c : Char) : Bool := c.isAlphanum || c = '_'

def skipBlanks (cs : List Char) : List Char := cs.dropWhile Text.isBlank

def hexDigit (c : Char) : Nat :=
  if c.isDigit then c.toNat - 48 else (c.toLower.toNat - 87)

def isHexDigit (c : Char) : Bool :=
  c.isDigit || ('a' ≤ c && c ≤ 'f') || ('A' ≤ c && c ≤ 'F')

/-- Digits with their base: decimal, octal behind a zero, hexadecimal behind `0x`. -/
def digitsOf (isDigit : Char → Bool) (base : Nat) (cs : List Char) : Int × List Char :=
  let n := (cs.takeWhile isDigit).foldl (fun v c ↦ base * v + hexDigit c) 0
  (Nat.min n (UInt64.size / 2 - 1), cs.dropWhile isDigit)

/-- The number at the front of a text that begins with a digit, and the rest. -/
def number (cs : List Char) : Int × List Char :=
  match cs with
  | '0' :: x :: c :: rest =>
    if (x = 'x' ∨ x = 'X') ∧ isHexDigit c then digitsOf isHexDigit 16 (c :: rest)
    else digitsOf (fun d ↦ '0' ≤ d && d ≤ '7') 8 cs
  | '0' :: _ => digitsOf (fun d ↦ '0' ≤ d && d ≤ '7') 8 cs
  | _ => digitsOf Char.isDigit 10 cs

/-- The value of a text that holds an integer and maybe a sign. -/
def readInt? (s : String) : Option Int :=
  match (Text.trim s).toList with
  | [] => none
  | '-' :: ds => if ds ≠ [] ∧ ds.all Char.isDigit then some (-Decimal.value ds) else none
  | '+' :: ds => if ds ≠ [] ∧ ds.all Char.isDigit then some (Decimal.value ds) else none
  | ds => if ds.all Char.isDigit then some (Decimal.value ds) else none

inductive Operator where
  | or
  | and
  | bitOr
  | bitXor
  | bitAnd
  | equal
  | unequal
  | less
  | lessEqual
  | greater
  | greaterEqual
  | shiftLeft
  | shiftRight
  | add
  | sub
  | mul
  | div
  | mod
  deriving DecidableEq, Repr

/-- The operator at the front, how strongly it binds, and its width. -/
def operator? : List Char → Option (Operator × Nat × Nat)
  | '|' :: '|' :: _ => some (.or, 1, 2)
  | '&' :: '&' :: _ => some (.and, 2, 2)
  | '=' :: '=' :: _ => some (.equal, 6, 2)
  | '!' :: '=' :: _ => some (.unequal, 6, 2)
  | '<' :: '<' :: _ => some (.shiftLeft, 8, 2)
  | '>' :: '>' :: _ => some (.shiftRight, 8, 2)
  | '<' :: '=' :: _ => some (.lessEqual, 7, 2)
  | '>' :: '=' :: _ => some (.greaterEqual, 7, 2)
  | '|' :: _ => some (.bitOr, 3, 1)
  | '^' :: _ => some (.bitXor, 4, 1)
  | '&' :: _ => some (.bitAnd, 5, 1)
  | '<' :: _ => some (.less, 7, 1)
  | '>' :: _ => some (.greater, 7, 1)
  | '+' :: _ => some (.add, 9, 1)
  | '-' :: _ => some (.sub, 9, 1)
  | '*' :: _ => some (.mul, 10, 1)
  | '/' :: _ => some (.div, 10, 1)
  | '%' :: _ => some (.mod, 10, 1)
  | _ => none

def truth (b : Bool) : Int := if b then 1 else 0

def bits (n : Int) : Nat := (n % UInt64.size).toNat

/-- Why an expression has no value. -/
inductive Problem where
  | noPrimary
  | noEnd
  | noBracket
  | noColon
  | divisionByZero
  | badNumber (s : String)
  deriving DecidableEq, Repr

def Problem.message (expression : String) : Problem → String
  | .noPrimary => "arithmetic expression: expecting primary: \"" ++ expression ++ "\""
  | .noEnd => "arithmetic expression: expecting EOF: \"" ++ expression ++ "\""
  | .noBracket => "arithmetic expression: expecting ')': \"" ++ expression ++ "\""
  | .noColon => "arithmetic expression: expecting ':': \"" ++ expression ++ "\""
  | .divisionByZero => "arithmetic expression: division by zero: \"" ++ expression ++ "\""
  | .badNumber s => "Illegal number: " ++ s

/-- `none` is a division by zero. -/
def apply (op : Operator) (a b : Int) : Option Int :=
  match op with
  | .or => some (truth (a ≠ 0 || b ≠ 0))
  | .and => some (truth (a ≠ 0 && b ≠ 0))
  | .bitOr => some (wrap (bits a ||| bits b : Nat))
  | .bitXor => some (wrap (bits a ^^^ bits b : Nat))
  | .bitAnd => some (wrap (bits a &&& bits b : Nat))
  | .equal => some (truth (a = b))
  | .unequal => some (truth (a ≠ b))
  | .less => some (truth (a < b))
  | .lessEqual => some (truth (a ≤ b))
  | .greater => some (truth (b < a))
  | .greaterEqual => some (truth (b ≤ a))
  | .shiftLeft => some (wrap (a * Nat.shiftLeft 1 (b % 64).toNat))
  | .shiftRight => some (a >>> (b % 64).toNat)
  | .add => some (wrap (a + b))
  | .sub => some (wrap (a - b))
  | .mul => some (wrap (a * b))
  | .div => if b = 0 then none else some (wrap (a.tdiv b))
  | .mod => if b = 0 then none else some (a.tmod b)

/-- The operator of an assignment at the front, and its width. An equality is none. -/
def assignment? : List Char → Option (Option Operator × Nat)
  | '=' :: '=' :: _ => none
  | '=' :: _ => some (none, 1)
  | '<' :: '<' :: '=' :: _ => some (some .shiftLeft, 3)
  | '>' :: '>' :: '=' :: _ => some (some .shiftRight, 3)
  | '+' :: '=' :: _ => some (some .add, 2)
  | '-' :: '=' :: _ => some (some .sub, 2)
  | '*' :: '=' :: _ => some (some .mul, 2)
  | '/' :: '=' :: _ => some (some .div, 2)
  | '%' :: '=' :: _ => some (some .mod, 2)
  | '&' :: '=' :: _ => some (some .bitAnd, 2)
  | '|' :: '=' :: _ => some (some .bitOr, 2)
  | '^' :: '=' :: _ => some (some .bitXor, 2)
  | _ => none

def name? (cs : List Char) : Option String :=
  match cs with
  | c :: _ => if isNameChar c && !c.isDigit then some (String.ofList (cs.takeWhile isNameChar)) else none
  | [] => none

abbrev Answer := Except Problem (Int × Reading)

variable (value : String → String)

/-- The value of a variable, as assigned on the way or as it was before. -/
def lookup (r : Reading) (name : String) : Except Problem Int :=
  match r.assigned.find? (·.1 = name) with
  | some found => .ok found.2
  | none =>
    if value name = "" then .ok 0
    else match readInt? (value name) with
      | some n => .ok n
      | none => .error (.badNumber (value name))

/-- Applies an operator unless its value is not asked for. -/
def combine (counts : Bool) (op : Operator) (a b : Int) : Except Problem Int :=
  if !counts then .ok a
  else match apply op a b with
    | some n => .ok n
    | none => .error .divisionByZero

mutual

/-- An assignment, or a choice. Where `counts` does not hold, the value is not asked for and nothing
is assigned. -/
def whole : (fuel : Nat) → (counts : Bool) → Reading → Answer
  | 0, _, _ => .error .noPrimary
  | fuel + 1, counts, r =>
    let cs := skipBlanks r.rest
    let choose : Answer := choice fuel counts { r with rest := cs }
    match name? cs with
    | none => choose
    | some name =>
      let cs := skipBlanks (cs.drop name.length)
      match assignment? cs with
      | none => choose
      | some (op, width) => do
        let (b, r) ← whole fuel counts { r with rest := cs.drop width }
        if !counts then return (b, r)
        else
          let v ← match op with
            | none => .ok b
            | some op => do combine true op (← lookup value r name) b
          return (v, { r with assigned := (name, v) :: r.assigned })

/-- One of two values, picked by what stands before the question mark. -/
def choice : (fuel : Nat) → (counts : Bool) → Reading → Answer
  | 0, _, _ => .error .noPrimary
  | fuel + 1, counts, r => do
    let (a, r) ← expression fuel counts 0 r
    match skipBlanks r.rest with
    | '?' :: cs =>
      let (b, r) ← whole fuel (counts && a ≠ 0) { r with rest := cs }
      match skipBlanks r.rest with
      | ':' :: cs =>
        let (c, r) ← choice fuel (counts && a = 0) { r with rest := cs }
        return (if a ≠ 0 then b else c, r)
      | _ => .error .noColon
    | _ => return (a, r)

/-- A value and the operators behind it that bind at least as strongly as `least`. -/
def expression : (fuel : Nat) → (counts : Bool) → (least : Nat) → Reading → Answer
  | 0, _, _, _ => .error .noPrimary
  | fuel + 1, counts, least, r => do
    let (a, r) ← operand fuel counts r
    operators fuel counts least a r

def operators : (fuel : Nat) → (counts : Bool) → (least : Nat) → Int → Reading → Answer
  | 0, _, _, _, _ => .error .noPrimary
  | fuel + 1, counts, least, a, r =>
    let cs := skipBlanks r.rest
    match assignment? cs, operator? cs with
    | none, some (op, strength, width) =>
      if strength < least then .ok (a, r)
      else do
        let asked := !(op = .or && a ≠ 0) && !(op = .and && a = 0)
        let (b, r) ← expression fuel (counts && asked) (strength + 1)
          { r with rest := cs.drop width }
        operators fuel counts least (← combine counts op a b) r
    | _, _ => .ok (a, r)

def operand : (fuel : Nat) → (counts : Bool) → Reading → Answer
  | 0, _, _ => .error .noPrimary
  | fuel + 1, counts, r =>
    let cs := skipBlanks r.rest
    let under (f : Int → Int) (cs : List Char) : Answer := do
      let (a, r) ← operand fuel counts { r with rest := cs }
      return (f a, r)
    match cs with
    | '(' :: cs => do
      let (a, r) ← whole fuel counts { r with rest := cs }
      match skipBlanks r.rest with
      | ')' :: cs => return (a, { r with rest := cs })
      | _ => .error .noBracket
    | '-' :: cs => under (fun a ↦ wrap (-a)) cs
    | '+' :: cs => under id cs
    | '!' :: cs => under (fun a ↦ truth (a = 0)) cs
    | '~' :: cs => under (fun a ↦ -a - 1) cs
    | _ =>
      match name? cs with
      | some name => do
        let v ← if counts then lookup value r name else .ok 0
        return (v, { r with rest := cs.drop name.length })
      | none =>
        if cs.head?.any Char.isDigit then
          let (n, rest) := number cs
          .ok (n, { r with rest })
        else .error .noPrimary

end

/-- The value of a text and the assignments in it, the last one first. -/
def evaluate (s : String) : Except Problem (Int × List (String × Int)) :=
  match whole value (8 * s.length + 16) true { rest := s.toList } with
    | .ok (n, r) => if skipBlanks r.rest = [] then .ok (n, r.assigned) else .error .noEnd
    | .error e => .error e

end DebugSession.Shell.Arithmetic
