import DebugSession.Shell.Arithmetic

/-!
What `echo` and `printf` make of their arguments.
-/

namespace DebugSession.Shell.Format

def isOctal (c : Char) : Bool := '0' ≤ c && c ≤ '7'

def octalChar (ds : List Char) : Char :=
  Char.ofNat (ds.foldl (fun v c ↦ 8 * v + (c.toNat - 48)) 0 % 256)

def simpleEscape? : Char → Option Char
  | 'a' => some '\x07'
  | 'b' => some '\x08'
  | 'f' => some '\x0c'
  | 'n' => some '\n'
  | 'r' => some '\r'
  | 't' => some '\t'
  | 'v' => some '\x0b'
  | '\\' => some '\\'
  | _ => none

/-- The character of an escape whose backslash is read already, and the rest. In a format an octal
number has up to three digits; in an argument up to three may follow a zero. -/
def escape (inArgument : Bool) (cs : List Char) : List Char × List Char :=
  match cs with
  | [] => (['\\'], [])
  | c :: rest =>
    match simpleEscape? c with
    | some d => ([d], rest)
    | none =>
      if isOctal c && (!inArgument || c = '0') then
        let ds := if inArgument then (rest.takeWhile isOctal).take 3
          else ((c :: rest).takeWhile isOctal).take 3
        ([octalChar ds], (if inArgument then rest else c :: rest).drop ds.length)
      else (['\\', c], rest)

/-- A text with its escapes resolved. `\c` ends all output, which the flag tells. -/
def unescape : (fuel : Nat) → List Char → List Char × Bool
  | 0, _ => ([], false)
  | _ + 1, [] => ([], false)
  | _ + 1, '\\' :: 'c' :: _ => ([], true)
  | fuel + 1, '\\' :: rest =>
    let (shown, rest) := escape true rest
    let (more, ends) := unescape fuel rest
    (shown ++ more, ends)
  | fuel + 1, c :: rest =>
    let (more, ends) := unescape fuel rest
    (c :: more, ends)

/-- Arguments with single spaces between them. `-n` in front keeps the newline away. -/
def echo (args : List String) : String :=
  let (newline, args) := match args with
    | "-n" :: args => (false, args)
    | args => (true, args)
  let text := (" ".intercalate args).toList
  let (shown, ends) := unescape (text.length + 1) text
  String.ofList shown ++ (if newline && !ends then "\n" else "")

structure Directive where
  flags : List Char := []
  /-- `none` takes it from the arguments. -/
  width : Option Nat := some 0
  precision : Option (Option Nat) := none
  conversion : Char

inductive Piece where
  | text (cs : List Char)
  | directive (d : Directive)

def digitsOrStar (cs : List Char) : Option Nat × List Char :=
  match cs with
  | '*' :: rest => (none, rest)
  | cs => (some (Decimal.value (cs.takeWhile Char.isDigit)), cs.dropWhile Char.isDigit)

/-- A directive behind its percent sign. -/
def directive? (cs : List Char) : Option (Directive × List Char) :=
  let isFlag := fun c ↦ "-+ #0".toList.contains c
  let flags := cs.takeWhile isFlag
  let (width, rest) := digitsOrStar (cs.dropWhile isFlag)
  let (precision, rest) := match rest with
    | '.' :: rest =>
      let (p, rest) := digitsOrStar rest
      (some p, rest)
    | rest => (none, rest)
  match rest with
  | [] => none
  | c :: rest => some (⟨flags, width, precision, c⟩, rest)

def pieces : (fuel : Nat) → List Char → List Piece
  | 0, _ => []
  | _ + 1, [] => []
  | fuel + 1, '\\' :: rest =>
    let (shown, rest) := escape false rest
    .text shown :: pieces fuel rest
  | fuel + 1, '%' :: '%' :: rest => .text ['%'] :: pieces fuel rest
  | fuel + 1, '%' :: rest =>
    match directive? rest with
    | some (d, rest) => .directive d :: pieces fuel rest
    | none => [.text ['%']]
  | fuel + 1, c :: rest =>
    let run := (c :: rest).takeWhile fun d ↦ d ≠ '\\' && d ≠ '%'
    .text run :: pieces fuel ((c :: rest).drop run.length)

/-- Blanks or zeros in front, or blanks behind, up to the width. A sign stays in front of zeros. -/
def pad (flags : List Char) (width : Nat) (zeros : Bool) (sign body : List Char) : List Char :=
  let missing := width - (sign.length + body.length)
  if flags.contains '-' then sign ++ body ++ List.replicate missing ' '
  else if zeros && flags.contains '0' then sign ++ List.replicate missing '0' ++ body
  else List.replicate missing ' ' ++ sign ++ body

/-- The number that an argument stands for, and what is wrong with it if anything is. -/
def numberOf (arg : String) : Int × Option String :=
  match arg.toList with
  | [] => (0, none)
  | '"' :: c :: _ => (c.toNat, none)
  | '\'' :: c :: _ => (c.toNat, none)
  | cs =>
    let (negative, ds) := match Arithmetic.skipBlanks cs with
      | '-' :: ds => (true, ds)
      | '+' :: ds => (false, ds)
      | ds => (false, ds)
    let (n, rest) := Arithmetic.number ds
    (if negative then -n else n,
      if !ds.head?.any Char.isDigit then some "expected numeric value"
      else if rest = [] then none
      else some "not completely converted")

def baseOf : Char → Nat
  | 'o' => 8
  | 'x' => 16
  | 'X' => 16
  | _ => 10

def integer (d : Directive) (width : Nat) (precision : Option Nat) (n : Int) : List Char :=
  let isSigned := d.conversion = 'd' || d.conversion = 'i'
  let magnitude := if isSigned then n.natAbs else Arithmetic.bits n
  let digits := Nat.toDigits (baseOf d.conversion) magnitude
  let digits := if d.conversion = 'X' then digits.map Char.toUpper else digits
  let digits := if precision = some 0 ∧ magnitude = 0 then [] else digits
  let digits := List.replicate (precision.getD 0 - digits.length) '0' ++ digits
  let sign := if !isSigned then []
    else if n < 0 then ['-']
    else if d.flags.contains '+' then ['+']
    else if d.flags.contains ' ' then [' ']
    else []
  let lead := if d.flags.contains '#' && magnitude ≠ 0 then
      (if d.conversion = 'x' then ['0', 'x'] else if d.conversion = 'X' then ['0', 'X'] else [])
    else []
  pad d.flags width precision.isNone (sign ++ lead) digits

structure Output where
  text : List Char := []
  /-- Arguments that are no numbers, each with what is wrong. -/
  bad : List String := []
  ends : Bool := false

/-- One directive on the arguments that are left. -/
def apply (d : Directive) (args : List String) : Output × List String :=
  let (width, args) := match d.width with
    | some w => ((w : Int), args)
    | none => ((numberOf (args.headD "")).1, args.drop 1)
  let d := if width < 0 then { d with flags := '-' :: d.flags } else d
  let (precision, args) := match d.precision with
    | none => (none, args)
    | some (some p) => (some p, args)
    | some none => (some (numberOf (args.headD "")).1.toNat, args.drop 1)
  let arg := args.headD ""
  let cut := fun cs ↦ match precision with
    | some p => List.take p cs
    | none => cs
  let w := width.natAbs
  if d.conversion = 's' then ({ text := pad d.flags w false [] (cut arg.toList) }, args.drop 1)
  else if d.conversion = 'b' then
    let (shown, ends) := unescape (arg.length + 1) arg.toList
    ({ text := pad d.flags w false [] (cut shown), ends }, args.drop 1)
  else if d.conversion = 'c' then
    ({ text := pad d.flags w false [] (arg.toList.take 1) }, args.drop 1)
  else
    let (n, problem) := numberOf arg
    ({ text := integer d w precision n, bad := (problem.map (arg ++ ": " ++ ·)).toList },
      args.drop 1)

/-- One pass over the format. -/
def pass : List Piece → List String → Output × List String
  | [], args => ({}, args)
  | .text cs :: ps, args =>
    let (out, args) := pass ps args
    ({ out with text := cs ++ out.text }, args)
  | .directive d :: ps, args =>
    let (first, args) := apply d args
    if first.ends then (first, [])
    else
      let (out, args) := pass ps args
      ({ out with text := first.text ++ out.text, bad := first.bad ++ out.bad }, args)

/-- The format is used again while it takes arguments and some are left. -/
def passes (ps : List Piece) : (fuel : Nat) → List String → Output
  | 0, _ => {}
  | fuel + 1, args =>
    let (out, left) := pass ps args
    if out.ends || left.isEmpty || left.length = args.length then out
    else
      let more := passes ps fuel left
      { text := out.text ++ more.text, bad := out.bad ++ more.bad, ends := more.ends }

def printf (format : String) (args : List String) : String × List String :=
  let out := passes (pieces (format.length + 1) format.toList) (args.length + 1) args
  (String.ofList out.text, out.bad)

end DebugSession.Shell.Format
