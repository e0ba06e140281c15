import DebugSession.Shell.Arithmetic
import DebugSession.Shell.Process

/-!
The conditions of `test`: operands and operators in one list of words, where the place of a word
decides which of the two it is. A reader gives its answer and the words from the last one it used.
-/

namespace DebugSession.Shell.Condition

open Exec

inductive Token where
  | none
  | operand
  | or
  | and
  | not
  | opening
  | closing
  | unary
  | binary
  deriving DecidableEq, Repr

/-- What a word means as an operator. -/
def operator? (word : String) : Option Token :=
  if word = "-o" then some .or
  else if word = "-a" then some .and
  else if word = "!" then some .not
  else if word = "(" then some .opening
  else if word = ")" then some .closing
  else if ["-r", "-w", "-x", "-e", "-f", "-d", "-c", "-b", "-p", "-u", "-g", "-k", "-s", "-t", "-z",
    "-n", "-h", "-O", "-G", "-L", "-S"].contains word then some .unary
  else if ["=", "!=", "<", ">", "-eq", "-ne", "-ge", "-gt", "-le", "-lt", "-nt", "-ot",
    "-ef"].contains word then some .binary
  else Option.none

/-- A word behind an operator for one operand takes the operator's place when it is the last, or when
an operator for two follows it. -/
def makesOperand : List String → Bool
  | [] => true
  | [_] => false
  | _ :: next :: _ => operator? next = some .binary

/-- The meaning of the first word. -/
def token : List String → Token
  | [] => .none
  | word :: rest =>
    match operator? word with
    | some .unary => if makesOperand rest then .operand else .unary
    | some .opening => if rest = [] then .operand else .opening
    | some t => t
    | Option.none => .operand

/-- A judgement, or why there is none. -/
abbrev Answer := ExceptT String Exec

def stat? (name : String) : Exec (Option Host.Entry) := do
  match (← world).disk.find (← proc).cwd ⟨toBytes name⟩ with
  | .ok (_, e) => return some e
  | .error _ => return Option.none

/-- The entry at a name itself, links not followed. -/
def linkStat? (name : String) : Exec (Option Host.Entry) := do
  let d := (← world).disk
  match d.locate (← proc).cwd false ⟨toBytes name⟩ with
  | .ok place => return d.get? place
  | .error _ => return Option.none

def isExecutable : Host.Entry → Bool
  | .file _ exec => exec
  | .null => false
  | _ => true

def isFilled : Host.Entry → Bool
  | .file content _ => content ≠ []
  | .null => false
  | _ => true

def isRegular : Host.Entry → Bool
  | .file _ _ => true
  | .tool _ => true
  | _ => false

def isLink : Host.Entry → Bool
  | .link _ => true
  | _ => false

def unary (op arg : String) : Exec Bool := do
  let entry ← stat? arg
  match op with
  | "-n" => return arg ≠ ""
  | "-z" => return arg = ""
  | "-e" | "-r" | "-w" | "-O" | "-G" => return entry.isSome
  | "-x" => return entry.any isExecutable
  | "-f" => return entry.any isRegular
  | "-d" => return entry = some .directory
  | "-c" => return entry = some .null
  | "-s" => return entry.any isFilled
  | "-h" | "-L" => return (← linkStat? arg).any isLink
  | _ => return false

def compare (holds : Int → Int → Bool) (a b : String) : Except String Bool :=
  match Arithmetic.readInt? a, Arithmetic.readInt? b with
  | some x, some y => .ok (holds x y)
  | Option.none, _ => .error ("Illegal number: " ++ a)
  | _, Option.none => .error ("Illegal number: " ++ b)

def binary (a op b : String) : Except String Bool :=
  match op with
  | "=" => .ok (a = b)
  | "!=" => .ok (a ≠ b)
  | "<" => .ok (a < b)
  | ">" => .ok (b < a)
  | "-eq" => compare (fun x y ↦ x = y) a b
  | "-ne" => compare (fun x y ↦ x ≠ y) a b
  | "-lt" => compare (fun x y ↦ x < y) a b
  | "-le" => compare (fun x y ↦ x ≤ y) a b
  | "-gt" => compare (fun x y ↦ y < x) a b
  | "-ge" => compare (fun x y ↦ y ≤ x) a b
  | _ => .ok false

mutual

/-- Sides with `-o` between them. All of them are judged. -/
def either : (fuel : Nat) → Token → List String → Answer (Bool × List String)
  | 0, _, words => return (false, words)
  | fuel + 1, t, words => do
    let (x, words) ← both fuel t words
    if token words.tail ≠ .or then return (x, words)
    else
      let (y, words) ← either fuel (token (words.drop 2)) (words.drop 2)
      return (x || y, words)

/-- Sides with `-a` between them. -/
def both : (fuel : Nat) → Token → List String → Answer (Bool × List String)
  | 0, _, words => return (false, words)
  | fuel + 1, t, words => do
    let (x, words) ← negation fuel t words
    if token words.tail ≠ .and then return (x, words)
    else
      let (y, words) ← both fuel (token (words.drop 2)) (words.drop 2)
      return (x && y, words)

def negation : (fuel : Nat) → Token → List String → Answer (Bool × List String)
  | 0, _, words => return (false, words)
  | fuel + 1, t, words => do
    if t ≠ .not then primary fuel t words
    else
      let next := token words.tail
      let (x, words) ← negation fuel next (if next = .none then words else words.tail)
      return (!x, words)

def primary : (fuel : Nat) → Token → List String → Answer (Bool × List String)
  | 0, _, words => return (false, words)
  | fuel + 1, t, words => do
    let first := words.headD ""
    match t with
    | .none => return (false, words)
    | .opening =>
      if token words.tail = .closing then return (false, words.tail)
      else
        let (x, words) ← either fuel (token words.tail) words.tail
        if token words.tail = .closing then return (x, words.tail)
        else throw "closing paren expected"
    | .unary =>
      match words.tail with
      | [] => throw (first ++ ": argument expected")
      | arg :: rest => return (← (unary first arg : Exec Bool), arg :: rest)
    | _ =>
      if token words.tail ≠ .binary then return (first ≠ "", words)
      else match words.tail with
        | op :: b :: rest =>
          match binary first op b with
          | .ok x => return (x, b :: rest)
          | .error e => throw e
        | op :: _ => throw (op ++ ": argument expected")
        | [] => return (false, words)

end

/-- Judges words of which the first one means `t`. None of them may be left over. -/
def judgeAs (t : Token) (words : List String) : Answer Bool := do
  match ← either (4 * words.length + 8) t words with
  | (_, last :: _ :: _) =>
    throw (if last = "" then "unexpected operator" else last ++ ": unexpected operator")
  | (x, _) => return x

/-- Three words with an operator for two in the middle are that comparison, whatever else the first
could be. Three or four words may be negated as a whole or stand in brackets. -/
def judge : List String → Answer Bool
  | [] => return false
  | word :: rest => do
    let short := rest.length = 2 || rest.length = 3
    if rest.length = 2 && (rest.head?.bind operator?) = some .binary then
      judgeAs .operand (word :: rest)
    else if short && word = "(" && rest.getLast? = some ")" then
      judgeAs (token rest.dropLast) rest.dropLast
    else if short && word = "!" then return !(← judge rest)
    else judgeAs (token (word :: rest)) (word :: rest)

/-- The status of `test` under the name it was called by. With `[` a closing bracket ends the words. -/
def test (name : String) (words : List String) : Exec Nat := do
  let answer : Answer Bool :=
    if name ≠ "[" then judge words
    else if words.getLast? = some "]" then judge words.dropLast
    else throw "missing ]"
  match ← answer.run with
  | .ok x => return if x then 0 else 1
  | .error e =>
    complain (name ++ ": " ++ e)
    return 2

end DebugSession.Shell.Condition
