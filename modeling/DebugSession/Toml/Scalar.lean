import DebugSession.Text.Decimal
import DebugSession.Toml.Lexeme
import DebugSession.Toml.Table

/-!
Unquoted values: booleans, integers, floating-point numbers, dates and times.
-/

namespace DebugSession.Toml

/-- Digits with single underscores between them, the underscores dropped. -/
def digitGroups (isDigit : Char → Bool) : Reader (List Char) := fun cs ↦
  let run := cs.takeWhile fun c ↦ isDigit c || c = '_'
  let joined := run.zip (run.drop 1)
  if run.head?.any isDigit && run.getLast?.any isDigit &&
      joined.all (fun pair ↦ isDigit pair.1 || isDigit pair.2) then
    some (run.filter isDigit, cs.drop run.length)
  else none

/-- Decimal digits that do not begin with a zero unless they are one. -/
def plainDigits : Reader (List Char) := fun cs ↦
  match digitGroups Char.isDigit cs with
  | some ('0' :: _ :: _, _) => none
  | found => found

def signed (negative : Bool) (n : Nat) : Int := if negative then -n else n

/-- The sign of a number and what follows it. -/
def sign : List Char → Bool × List Char
  | '-' :: rest => (true, rest)
  | '+' :: rest => (false, rest)
  | cs => (false, cs)

def digitBelow (base : Nat) (c : Char) : Bool := (hexValue? c).any (· < base)

def radix? (base : Nat) (cs : List Char) : Option Value :=
  match digitGroups (digitBelow base) cs with
  | some (ds, []) => some (.integer (ds.foldl (fun v c ↦ base * v + (hexValue? c).getD 0) 0 : Nat))
  | _ => none

/-- An exponent may have leading zeros. -/
def exponent? : List Char → Option Int
  | c :: rest =>
    if c = 'e' ∨ c = 'E' then
      let (negative, rest) := sign rest
      match digitGroups Char.isDigit rest with
      | some (ds, []) => some (signed negative (Decimal.value ds))
      | _ => none
    else none
  | [] => none

/-- What may follow the whole part of a number: nothing, a fraction, an exponent, or both. -/
def numberTail? (negative : Bool) (whole : List Char) : List Char → Option Value
  | [] => some (.integer (signed negative (Decimal.value whole)))
  | '.' :: rest =>
    match digitGroups Char.isDigit rest with
    | some (fraction, rest) =>
      let mantissa := signed negative (Decimal.value (whole ++ fraction))
      if rest = [] then some (.decimal mantissa (-fraction.length))
      else (exponent? rest).map fun e ↦ .decimal mantissa (e - fraction.length)
    | none => none
  | rest => (exponent? rest).map fun e ↦ .decimal (signed negative (Decimal.value whole)) e

def number? (cs : List Char) : Option Value :=
  let (negative, unsigned) := sign cs
  match unsigned with
  | ['i', 'n', 'f'] => some .special
  | ['n', 'a', 'n'] => some .special
  | _ =>
    match plainDigits unsigned with
    | some (whole, rest) => numberTail? negative whole rest
    | none => none

def isLeapYear (year : Nat) : Bool :=
  year % 4 = 0 && (year % 100 ≠ 0 || year % 400 = 0)

def daysIn (year month : Nat) : Nat :=
  if month = 2 then (if isLeapYear year then 29 else 28)
  else if month = 4 ∨ month = 6 ∨ month = 9 ∨ month = 11 then 30 else 31

/-- Exactly `n` digits with a value from `low` to `high`. -/
def field (n low high : Nat) : Reader Nat := fun cs ↦
  match Decimal.read? (cs.takeWhile Char.isDigit) with
  | some v =>
    if (cs.takeWhile Char.isDigit).length = n ∧ low ≤ v ∧ v ≤ high then
      some (v, cs.dropWhile Char.isDigit)
    else none
  | none => none

def lit (c : Char) : List Char → Option (List Char)
  | d :: rest => if c = d then some rest else none
  | [] => none

/-- `YYYY-MM-DD`, a day that the month has. -/
def date (cs : List Char) : Option (List Char) := do
  let (year, cs) ← field 4 0 9999 cs
  let cs ← lit '-' cs
  let (month, cs) ← field 2 1 12 cs
  let cs ← lit '-' cs
  let (_, cs) ← field 2 1 (daysIn year month) cs
  return cs

/-- `HH:MM`, then seconds if there are any, then a fraction of them. A minute may have a leap second. -/
def timeOfDay (cs : List Char) : Option (List Char) := do
  let (_, cs) ← field 2 0 23 cs
  let cs ← lit ':' cs
  let (_, cs) ← field 2 0 59 cs
  match cs with
  | ':' :: cs =>
    let (_, cs) ← field 2 0 60 cs
    match cs with
    | '.' :: cs => if (cs.takeWhile Char.isDigit) = [] then none else some (cs.dropWhile Char.isDigit)
    | cs => some cs
  | cs => some cs

def offset (cs : List Char) : Option (List Char) :=
  match cs with
  | [] => some []
  | c :: rest =>
    if c = 'Z' ∨ c = 'z' then some rest
    else if c = '+' ∨ c = '-' then do
      let (_, cs) ← field 2 0 23 rest
      let cs ← lit ':' cs
      let (_, cs) ← field 2 0 59 cs
      return cs
    else none

/-- A date, a time, or a date and a time with or without an offset. -/
def isMoment (cs : List Char) : Bool :=
  match date cs with
  | some [] => true
  | some (c :: rest) =>
    (c = 'T' || c = 't' || c = ' ') && (timeOfDay rest >>= offset) = some []
  | none => timeOfDay cs = some []

def scalar? (cs : List Char) : Option Value :=
  match cs with
  | ['t', 'r', 'u', 'e'] => some (.boolean true)
  | ['f', 'a', 'l', 's', 'e'] => some (.boolean false)
  | '0' :: 'x' :: ds => radix? 16 ds
  | '0' :: 'o' :: ds => radix? 8 ds
  | '0' :: 'b' :: ds => radix? 2 ds
  | _ => if isMoment cs then some .moment else number? cs

/-- A character that ends an unquoted value. -/
def endsScalar (c : Char) : Bool :=
  isSpace c || c = '\r' || c = '\n' || c = ',' || c = '#' ||
  c = '[' || c = ']' || c = '\x7b' || c = '\x7d' || c = '='

/-- The text of an unquoted value. A date may go on after one space with a time. -/
def scalarText (cs : List Char) : List Char :=
  let run := cs.takeWhile (!endsScalar ·)
  match date run, cs.drop run.length with
  | some [], ' ' :: d :: rest =>
    if d.isDigit then run ++ ' ' :: (d :: rest).takeWhile (!endsScalar ·) else run
  | _, _ => run

/-- The least number that is too large for a double, rounding to nearest. -/
def doubleBound : Nat := Nat.pow 2 1024 - Nat.pow 2 970

/-- Whether `mantissa * 10 ^ exponent` stays below `doubleBound`. The digit count decides alone where
the powers of ten would grow large. -/
def fitsDouble (mantissa : Nat) (exponent : Int) : Bool :=
  let places := (Decimal.digits mantissa).length + exponent
  if mantissa = 0 ∨ places ≤ 300 then true
  else if places > 310 then false
  else match exponent with
    | .ofNat n => mantissa * Nat.pow 10 n < doubleBound
    | .negSucc n => mantissa < doubleBound * Nat.pow 10 (n + 1)

/-- Integers have 128 bits, signed or not, and decimals have to be finite as doubles. -/
def inRange : Value → Bool
  | .integer (.ofNat n) => n < Nat.pow 2 128
  | .integer (.negSucc n) => n < Nat.pow 2 127
  | .decimal mantissa exponent => fitsDouble mantissa.natAbs exponent
  | _ => true

def scalar : Reader Value := fun cs ↦
  let text := scalarText cs
  match scalar? text with
  | some v => if inRange v then some (v, cs.drop text.length) else none
  | none => none

end DebugSession.Toml
