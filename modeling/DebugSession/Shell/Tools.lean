import DebugSession.Shell.Format
import DebugSession.Shell.Process
import DebugSession.Shell.Search

/-!
Commands that only read and write: what they do to the world, and their status.
-/

namespace DebugSession.Shell.Tools

open Exec

def echo (args : List String) : Exec Nat := do
  if ← write 1 (Format.echo args) then return 0
  else
    complain "echo: echo: I/O error"
    return 1

def printf (args : List String) : Exec Nat := do
  match (match args with
    | "--" :: args => args
    | args => args) with
  | [] =>
    complain "printf: usage: printf format [arg ...]"
    return 2
  | format :: args =>
    let (text, bad) := Format.printf format args
    let written ← write 1 text
    for b in bad do complain ("printf: " ++ b)
    if !written then
      complain "printf: printf: I/O error"
      return 1
    return if bad.isEmpty then 0 else 1

/-- Seconds, maybe with a fraction, in nanoseconds. -/
def readSpan? (s : String) : Option Nat :=
  let cs := s.toList
  let whole := cs.takeWhile Char.isDigit
  let unit := fun (rest : List Char) ↦
    match rest with
    | [] => some 1
    | ['s'] => some 1
    | ['m'] => some 60
    | ['h'] => some 3600
    | ['d'] => some 86400
    | _ => none
  match cs.drop whole.length with
  | '.' :: rest =>
    let fraction := rest.takeWhile Char.isDigit
    (unit (rest.drop fraction.length)).map fun k ↦
      k * (Decimal.value whole * 1000000000 +
        Decimal.value ((fraction ++ List.replicate 9 '0').take 9))
  | rest => if whole = [] then none else (unit rest).map fun k ↦ k * Decimal.value whole * 1000000000

def sleep (args : List String) : Exec Nat := do
  match args.mapM readSpan? with
  | none =>
    let bad := (args.find? fun a ↦ (readSpan? a).isNone).getD ""
    let _ ← write 2 ("sleep: invalid time interval '" ++ bad ++
      "'\nTry 'sleep --help' for more information.\n")
    return 1
  | some [] =>
    let _ ← write 2 "sleep: missing operand\nTry 'sleep --help' for more information.\n"
    return 1
  | some spans =>
    modifyWorld fun w ↦ { w with clock := spans.foldl (· + ·) w.clock }
    return 0

/-- The text of a file, or of the standard input where the name is a hyphen. -/
def contents (name : String) : Exec (Except String (List Char)) := do
  if name = "-" then return .ok (← takeAll 0)
  else match (← world).disk.read (← proc).cwd ⟨toBytes name⟩ with
    | .ok bs => return .ok (octets bs).toList
    | .error (.system e) => return .error e.meaning
    | .error e => return .error e.message

def cat (args : List String) : Exec Nat := do
  let names := if args.isEmpty then ["-"] else args
  let mut status := 0
  for name in names do
    match ← contents name with
    | .ok text => let _ ← write 1 (String.ofList text)
    | .error e =>
      let _ ← write 2 ("cat: " ++ name ++ ": " ++ e ++ "\n")
      status := 1
  return status

structure GrepOptions where
  quiet : Bool := false
  inverted : Bool := false
  ignoreCase : Bool := false
  countOnly : Bool := false
  fixed : Bool := false
  numbered : Bool := false
  namesOnly : Bool := false

def grepOptions (o : GrepOptions) : List String → GrepOptions × List String
  | [] => (o, [])
  | arg :: args =>
    match arg.toList with
    | ['-', '-'] => (o, args)
    | '-' :: c :: letters =>
      let all := c :: letters
      grepOptions {
        quiet := o.quiet || all.contains 'q'
        inverted := o.inverted || all.contains 'v'
        ignoreCase := o.ignoreCase || all.contains 'i'
        countOnly := o.countOnly || all.contains 'c'
        fixed := o.fixed || all.contains 'F'
        numbered := o.numbered || all.contains 'n'
        namesOnly := o.namesOnly || all.contains 'l' } args
    | _ => (o, arg :: args)

def grepHit (o : GrepOptions) (pattern : String) (line : List Char) : Bool :=
  let fold := fun (cs : List Char) ↦ if o.ignoreCase then cs.map Char.toLower else cs
  let found :=
    if o.fixed then
      (Search.suffixes (fold line)).any fun s ↦ (fold pattern.toList).isPrefixOf s
    else (Search.ofText (String.ofList (fold pattern.toList))).occursIn (fold line)
  found != o.inverted

def grep (args : List String) : Exec Nat := do
  match grepOptions {} args with
  | (_, []) =>
    let _ ← write 2 "Usage: grep [OPTION]... PATTERNS [FILE]...\n"
    return 2
  | (o, pattern :: names) =>
    let several := 1 < names.length
    let mut hits := 0
    let mut trouble := false
    for name in (if names.isEmpty then ["-"] else names) do
      match ← contents name with
      | .error e =>
        let _ ← write 2 ("grep: " ++ name ++ ": " ++ e ++ "\n")
        trouble := true
      | .ok text =>
        let lines := (Text.cutAt (· = '\n') text).zipIdx 1
        let lines := if (lines.getLast?.map (·.1)) = some [] then lines.dropLast else lines
        let found := lines.filter fun l ↦ grepHit o pattern l.1
        hits := hits + found.length
        let lead := if several then name ++ ":" else ""
        if o.quiet then pure ()
        else if o.namesOnly then
          if !found.isEmpty then let _ ← write 1 (name ++ "\n")
        else if o.countOnly then let _ ← write 1 (lead ++ Decimal.text found.length ++ "\n")
        else
          for l in found do
            let _ ← write 1 (lead ++ (if o.numbered then Decimal.text l.2 ++ ":" else "") ++
              String.ofList l.1 ++ "\n")
    return if trouble && !(o.quiet && 0 < hits) then 2 else if 0 < hits then 0 else 1

def dropSlashes (cs : List Char) : List Char := Text.trimEnd (· = '/') cs

/-- The last step of a path text, without a given end. -/
def lastStep (s ending : String) : String :=
  let cs := dropSlashes s.toList
  if s = "" then ""
  else if cs = [] then "/"
  else
    let base := (cs.reverse.takeWhile (· ≠ '/')).reverse
    let e := ending.toList
    if e ≠ [] ∧ base ≠ e ∧ e.isSuffixOf base then String.ofList (base.take (base.length - e.length))
    else String.ofList base

def firstSteps (s : String) : String :=
  let cs := dropSlashes s.toList
  if cs = [] then (if s = "" then "." else "/")
  else
    let lead := (cs.reverse.dropWhile (· ≠ '/')).reverse
    if lead = [] then "."
    else
      let kept := dropSlashes lead
      if kept = [] then "/" else String.ofList kept

def basename (args : List String) : Exec Nat := do
  match (if args.head? = some "--" then args.drop 1 else args) with
  | [] =>
    let _ ← write 2 "basename: missing operand\nTry 'basename --help' for more information.\n"
    return 1
  | s :: rest =>
    let _ ← write 1 (lastStep s (rest.headD "") ++ "\n")
    return 0

def dirname (args : List String) : Exec Nat := do
  match args with
  | [] =>
    let _ ← write 2 "dirname: missing operand\nTry 'dirname --help' for more information.\n"
    return 1
  | names =>
    for s in names do
      let _ ← write 1 (firstSteps s ++ "\n")
    return 0

def signalOf? (s : String) : Option Nat :=
  match Decimal.read? s.toList with
  | some n => some n
  | none =>
    let name := (Text.after? "SIG" s).getD s
    [("HUP", 1), ("INT", 2), ("QUIT", 3), ("ABRT", 6), ("KILL", 9), ("USR1", 10), ("SEGV", 11),
      ("USR2", 12), ("PIPE", 13), ("ALRM", 14), ("TERM", 15), ("CHLD", 17), ("CONT", 18),
      ("STOP", 19)].lookup name

/-- Signals that do nothing to a process unless it asks for them. -/
def isHarmless (n : Nat) : Bool := [0, 17, 18, 23, 28].contains n

def killNow (signal : Nat) (pids : List String) : Exec Nat := do
  let p ← proc
  let mut status := 0
  for pid in pids do
    if pid = Decimal.text p.pid then
      if isHarmless signal then pure ()
      else if signal = 19 then throw .endless
      else throw (.killed signal)
    else
      complain "kill: No such process\n"
      status := 1
  return status

def kill (args : List String) : Exec Nat := do
  match args with
  | "-s" :: name :: pids =>
    match signalOf? name with
    | some n => killNow n pids
    | none =>
      complain ("kill: invalid signal number or name: " ++ name)
      return 2
  | first :: pids =>
    match first.toList with
    | '-' :: name =>
      match signalOf? (String.ofList name) with
      | some n => killNow n pids
      | none =>
        complain ("kill: Illegal option " ++ first)
        return 2
    | _ => killNow 15 (first :: pids)
  | [] =>
    complain "kill: Usage: kill [-s sigspec | -signum | -sigspec] [pid | job]... or kill -l [exitstatus]"
    return 2

/-- The values for `count` names: the last one takes what is left of the line. -/
def splitLine (separators : List Char) : (count : Nat) → List (Char × Bool) → List String
  | 0, _ => []
  | count + 1, line =>
    let isBlank := fun (c : Char × Bool) ↦
      !c.2 && separators.contains c.1 && (c.1 = ' ' || c.1 = '\t' || c.1 = '\n')
    let isSeparator := fun (c : Char × Bool) ↦ !c.2 && separators.contains c.1
    let line := line.dropWhile isBlank
    if count = 0 then [String.ofList ((Text.trimEnd isBlank line).map (·.1))]
    else
      let first := line.takeWhile (!isSeparator ·)
      let rest := (line.drop first.length).dropWhile isBlank
      let rest := match rest with
        | c :: more => if isSeparator c then more else rest
        | [] => []
      String.ofList (first.map (·.1)) :: splitLine separators count rest

/-- The characters of a line, each with whether a backslash protected it. -/
def unescapeLine : List Char → List (Char × Bool)
  | [] => []
  | ['\\'] => []
  | '\\' :: c :: rest => (c, true) :: unescapeLine rest
  | c :: rest => (c, false) :: unescapeLine rest

/-- A line, and the lines joined to it by a backslash at its end. -/
def takeJoined : (fuel : Nat) → Exec (List Char × Bool)
  | 0 => return ([], false)
  | fuel + 1 => do
    let line ← takeLine 0
    match line.reverse with
    | '\n' :: '\\' :: rest =>
      let (more, ended) ← takeJoined fuel
      return (rest.reverse ++ more, ended)
    | '\n' :: rest => return (rest.reverse, true)
    | _ => return (line, false)

def read (args : List String) (separators : List Char) : Exec Nat := do
  let (raw, names) := match args with
    | "-r" :: names => (true, names)
    | names => (false, names)
  if names.isEmpty then
    complain "read: arg count"
    return 2
  let (line, ended) ← if raw then do
      let line ← takeLine 0
      pure (line.filter (· ≠ '\n'), decide (line.getLast? = some '\n'))
    else takeJoined 100
  let chars := if raw then line.map fun c ↦ (c, false) else unescapeLine line
  for (name, value) in names.zip (splitLine separators names.length chars) do
    setVariable name value
  return if ended then 0 else 1

end DebugSession.Shell.Tools
