import DebugSession.Shell.Command
import DebugSession.Text.Decimal

/-!
Reading shell scripts. A script runs line by line, so what was read before an error still runs: a
reading gives the commands of each full line in order, and the trouble that ended it, if any.
-/

namespace DebugSession.Shell

structure Cursor where
  rest : List Char
  line : Nat := 1
  /-- How many lines right after this one were read before their turn. -/
  readAhead : Nat := 0

/-- Why a script cannot be read on. -/
structure Trouble where
  message : String
  line : Nat
  deriving DecidableEq, Repr

abbrev Read := StateT Cursor (Except Trouble)

namespace Read

def fail {α : Type} (message : String) : Read α := do
  throw ⟨message, (← get).line⟩

def peek : Read (Option Char) := return (← get).rest.head?

def peekTwo : Read (List Char) := return (← get).rest.take 2

/-- Steps over `n` characters. -/
def skip (n : Nat) : Read Unit :=
  modify fun c ↦
    match ((c.rest.take n).filter (· = '\n')).length with
    | 0 => { c with rest := c.rest.drop n }
    | lines => ⟨c.rest.drop n, c.line + lines + c.readAhead, 0⟩

def isMeta (c : Char) : Bool :=
  c = ' ' || c = '\t' || c = '\n' || c = ';' || c = '&' || c = '|' || c = '<' || c = '>' ||
  c = '(' || c = ')'

def isNameStart (c : Char) : Bool := c.isAlpha || c = '_'

def isNameChar (c : Char) : Bool := c.isAlphanum || c = '_'

/-- Spaces, joined lines, and a comment if one begins. -/
def blanksEnd : List Char → List Char
  | ' ' :: rest => blanksEnd rest
  | '\t' :: rest => blanksEnd rest
  | '\\' :: '\n' :: rest => blanksEnd rest
  | '#' :: rest => rest.dropWhile (· ≠ '\n')
  | rest => rest

def blanks : Read Unit := do
  let c ← get
  skip (c.rest.length - (blanksEnd c.rest).length)

def newlines (fuel : Nat) : Read Unit :=
  match fuel with
  | 0 => return
  | fuel + 1 => do
    blanks
    if (← peek) = some '\n' then
      skip 1
      newlines fuel

def keywords : List String :=
  ["if", "then", "else", "elif", "fi", "while", "until", "for", "in", "do", "done", "case", "esac",
    "!", "\x7b", "\x7d"]

/-- Keywords that end a list of commands. -/
def closers : List String := ["then", "else", "elif", "fi", "do", "done", "esac", "\x7d"]

/-- The plain text up to the next blank or operator, if it has no quotes in it. -/
def plainWord (cs : List Char) : Option String :=
  let run := cs.takeWhile (!isMeta ·)
  if run = [] ∨ run.any (fun c ↦ c = '\'' || c = '"' || c = '\\' || c = '$' || c = '\x60') then none
  else some (String.ofList run)

def peekKeyword : Read (Option String) := do
  blanks
  match plainWord (← get).rest with
  | some w => return if keywords.contains w then some w else none
  | none => return none

/-- How the next token is named in a complaint. Keywords count only where a command may begin. -/
def tokenName (atCommand : Bool) (cs : List Char) : String :=
  match cs with
  | [] => "end of file"
  | '\n' :: _ => "newline"
  | ';' :: ';' :: _ => "\";;\""
  | '&' :: '&' :: _ => "\"&&\""
  | '|' :: '|' :: _ => "\"||\""
  | c :: _ =>
    if c = '<' ∨ c = '>' then "redirection"
    else if isMeta c then "\"" ++ String.singleton c ++ "\""
    else match plainWord cs with
      | some w => if atCommand && keywords.contains w then "\"" ++ w ++ "\"" else "word"
      | none => "word"

/-- Complains about the next token. A newline there has been read already. -/
def unexpectedToken {α : Type} (atCommand : Bool) (tail : String) : Read α := do
  blanks
  let name := tokenName atCommand (← get).rest
  if (← peek) = some '\n' then skip 1
  fail (name ++ " unexpected" ++ tail)

def unexpected {α : Type} : Read α := unexpectedToken true ""

def expecting {α : Type} (atCommand : Bool) (token : String) : Read α :=
  unexpectedToken atCommand (" (expecting \"" ++ token ++ "\")")

def keyword (w : String) : Read Unit := do
  if (← peekKeyword) = some w then skip w.length else expecting true w

/-- Complains at the end of the script. -/
def failAtEnd {α : Type} (message : String) : Read α := do
  skip (← get).rest.length
  fail message

def unterminated {α : Type} : Read α := failAtEnd "Unterminated quoted string"

/-- The text up to a closing mark, which is stepped over. -/
def upTo (mark : Char) : Read String := do
  let c ← get
  let run := c.rest.takeWhile (· ≠ mark)
  if run.length < c.rest.length then
    skip (run.length + 1)
    return String.ofList run
  else unterminated

/-- The inside of a command in back quotes and what follows it. -/
def backquoted : List Char → List Char → Option (List Char × List Char)
  | _, [] => none
  | read, '\x60' :: rest => some (read.reverse, rest)
  | read, '\\' :: c :: rest =>
    if c = '\x60' ∨ c = '\\' ∨ c = '$' then backquoted (c :: read) rest
    else backquoted (c :: '\\' :: read) rest
  | read, c :: rest => backquoted (c :: read) rest

/-- The inside of an arithmetic expansion: up to two closing brackets that are not inside others. -/
def balanced : (depth : Nat) → List Char → List Char → Option (List Char × List Char)
  | _, _, [] => none
  | 0, read, ')' :: ')' :: rest => some (read.reverse, rest)
  | 0, _, ')' :: _ => none
  | depth + 1, read, ')' :: rest => balanced depth (')' :: read) rest
  | depth, read, '(' :: rest => balanced (depth + 1) ('(' :: read) rest
  | depth, read, c :: rest => balanced depth (c :: read) rest

/-- Adds plain text to the parts read so far, newest first. -/
def addText (parts : List Part) (s : String) (quoted : Bool) : List Part :=
  match parts with
  | .text t q :: rest => if q = quoted then .text (t ++ s) q :: rest else .text s quoted :: parts
  | _ => .text s quoted :: parts

/-- The lines of a here-document up to the one that is `mark`, and what follows that line. -/
def hereBody (mark : List Char) (tabs : Bool) : List (List Char) → List (List Char) × List (List Char)
  | [] => ([], [])
  | line :: lines =>
    let shown := if tabs then line.dropWhile (· = '\t') else line
    if shown = mark ∨ shown = mark ++ ['\n'] then ([], lines)
    else
      let (body, rest) := hereBody mark tabs lines
      (shown :: body, rest)

/-- The text of a word that is used as a mark, and whether any of it was quoted. -/
def markOf (w : Word) : String × Bool :=
  (String.join (w.map fun p ↦
    match p with
    | .text s _ => s
    | _ => ""), w.any fun p ↦
    match p with
    | .text _ quoted => quoted
    | _ => false)

def useOf? : List Char → Option (Use × Bool × Nat)
  | ':' :: '-' :: _ => some (.orElse, true, 2)
  | ':' :: '=' :: _ => some (.orAssign, true, 2)
  | ':' :: '?' :: _ => some (.orFail, true, 2)
  | ':' :: '+' :: _ => some (.instead, true, 2)
  | '-' :: _ => some (.orElse, false, 1)
  | '=' :: _ => some (.orAssign, false, 1)
  | '?' :: _ => some (.orFail, false, 1)
  | '+' :: _ => some (.instead, false, 1)
  | '#' :: '#' :: _ => some (.dropLongFront, false, 2)
  | '#' :: _ => some (.dropShortFront, false, 1)
  | '%' :: '%' :: _ => some (.dropLongBack, false, 2)
  | '%' :: _ => some (.dropShortBack, false, 1)
  | _ => none

/-- The name of a parameter. Behind a plain dollar sign a number has one digit. -/
def paramName (braced : Bool) (cs : List Char) : String :=
  match cs with
  | [] => ""
  | c :: _ =>
    if isNameStart c then String.ofList (cs.takeWhile isNameChar)
    else if c.isDigit then String.ofList (if braced then cs.takeWhile Char.isDigit else [c])
    else if "@*#?$!-".toList.contains c then String.singleton c
    else ""

/-- What is in braces is no parameter. It has to end on its line all the same. -/
def badParam (quoted : Bool) : Read Part := do
  let c ← get
  let inside := c.rest.takeWhile fun d ↦ d ≠ '\x7d' && d ≠ '\n'
  if (c.rest.drop inside.length).head? = some '\x7d' then
    skip (inside.length + 1)
    return .bad
  else fail (if quoted then "Unterminated quoted string" else "Missing '\x7d'")

/-- Builtins that no function may replace. -/
def specialNames : List String :=
  [":", ".", "break", "continue", "eval", "exec", "exit", "export", "readonly", "return", "set",
    "shift", "times", "trap", "unset"]

def functionName? : Word → Option String
  | [.text s false] =>
    if s.toList.head?.any isNameStart && s.toList.all isNameChar && !specialNames.contains s then
      some s
    else none
  | _ => none

mutual

/-- What a dollar sign introduces, the sign itself already read. -/
def dollar : (fuel : Nat) → (quoted : Bool) → Read Part
  | 0, _ => unterminated
  | fuel + 1, quoted => do
    let c ← get
    match c.rest with
    | '(' :: '(' :: rest =>
      match balanced 0 [] rest with
      | some (inside, after) =>
        skip (c.rest.length - after.length)
        let here ← get
        set { here with rest := inside }
        let expression ← quotedParts fuel none []
        set here
        return .sum expression quoted
      | none => failAtEnd "Missing '))'"
    | '(' :: _ =>
      skip 1
      let body ← commands fuel
      blanks
      if (← peek) = some ')' then
        skip 1
        return .output body quoted
      else expecting true ")"
    | '\x7b' :: rest =>
      skip 1
      match rest with
      | '#' :: d :: _ =>
        if d ≠ '\x7d' then
          skip 1
          let name := paramName true (← get).rest
          skip name.length
          if name ≠ "" && (← peek) = some '\x7d' then
            skip 1
            return .length name quoted
          else badParam quoted
        else
          skip 2
          return .param "#" quoted
      | _ =>
        let name := paramName true (← get).rest
        skip name.length
        if name = "" then badParam quoted
        else match useOf? (← get).rest with
          | some (use, nonEmpty, n) =>
            skip n
            let w ← if quoted && !use.isDrop then quotedParts fuel (some '\x7d') []
              else bracedParts fuel []
            return .paramUse name use nonEmpty w quoted
          | none =>
            if (← peek) = some '\x7d' then
              skip 1
              return .param name quoted
            else badParam quoted
    | rest =>
      let name := paramName false rest
      if name = "" then return .text "$" quoted
      else
        skip name.length
        return .param name quoted

/-- A command in back quotes, the first of them already read. -/
def backquote : (fuel : Nat) → (quoted : Bool) → Read Part
  | 0, _ => unterminated
  | fuel + 1, quoted => do
    let c ← get
    match backquoted [] c.rest with
    | none => failAtEnd "EOF in backquote substitution"
    | some (inside, after) =>
      skip (c.rest.length - after.length)
      let here ← get
      set { here with rest := inside }
      let body ← commands fuel
      set here
      return .output body quoted

/-- Parts as between double quotes, up to `stop`, or to the end of the text when there is none. -/
def quotedParts : (fuel : Nat) → (stop : Option Char) → List Part → Read Word
  | 0, _, _ => unterminated
  | fuel + 1, stop, parts => do
    match (← get).rest with
    | [] => if stop.isNone then return parts.reverse else unterminated
    | '\\' :: c :: _ =>
      skip 2
      if c = '\n' then quotedParts fuel stop parts
      else if c = '$' ∨ c = '\x60' ∨ c = '\\' ∨ (c = '"' ∧ stop.isSome) ∨ some c = stop then
        quotedParts fuel stop (addText parts (String.singleton c) true)
      else quotedParts fuel stop (addText parts (String.ofList ['\\', c]) true)
    | '$' :: _ =>
      skip 1
      let p ← dollar fuel true
      quotedParts fuel stop (p :: parts)
    | '\x60' :: _ =>
      skip 1
      let p ← backquote fuel true
      quotedParts fuel stop (p :: parts)
    | c :: _ =>
      skip 1
      if some c = stop then return parts.reverse
      else quotedParts fuel stop (addText parts (String.singleton c) true)

/-- One part of a word outside of quotes. -/
def unquotedPart : (fuel : Nat) → (c : Char) → List Part → Read (List Part)
  | 0, _, _ => unterminated
  | fuel + 1, c, parts => do
    skip 1
    if c = '\'' then
      return addText parts (← upTo '\'') true
    else if c = '"' then
      let inside ← quotedParts fuel (some '"') []
      return if inside.isEmpty then addText parts "" true else inside.reverse ++ parts
    else if c = '\\' then
      match ← peek with
      | none => return addText parts "\\" true
      | some '\n' =>
        skip 1
        return parts
      | some d =>
        skip 1
        return addText parts (String.singleton d) true
    else if c = '$' then
      let p ← dollar fuel false
      return p :: parts
    else if c = '\x60' then
      let p ← backquote fuel false
      return p :: parts
    else return addText parts (String.singleton c) false

/-- The word of a parameter in braces, up to the closing brace. -/
def bracedParts : (fuel : Nat) → List Part → Read Word
  | 0, _ => unterminated
  | fuel + 1, parts => do
    match ← peek with
    | none => failAtEnd "Missing '\x7d'"
    | some '\x7d' =>
      skip 1
      return parts.reverse
    | some c => bracedParts fuel (← unquotedPart fuel c parts)

/-- The parts of a word, newest first. -/
def wordParts : (fuel : Nat) → List Part → Read Word
  | 0, _ => unterminated
  | fuel + 1, parts => do
    match ← peek with
    | none => return parts.reverse
    | some c =>
      if isMeta c then return parts.reverse
      else wordParts fuel (← unquotedPart fuel c parts)

def word : (fuel : Nat) → Read Word
  | 0 => unterminated
  | fuel + 1 => do
    blanks
    match ← peek with
    | none => unexpected
    | some c => if isMeta c then unexpected else wordParts fuel []

/-- A redirection, if one begins here. -/
def redirect? : (fuel : Nat) → Read (Option Redirect)
  | 0 => unterminated
  | fuel + 1 => do
    blanks
    let cs := (← get).rest
    let digits := cs.takeWhile Char.isDigit
    let channel (standard : Nat) := if digits = [] then standard else Decimal.value digits
    let file (standard : Nat) (flow : Flow) (width : Nat) : Read (Option Redirect) := do
      skip (digits.length + width)
      return some (.file (channel standard) flow (← word fuel))
    match cs.drop digits.length with
    | '<' :: '<' :: rest =>
      let tabs := rest.head? = some '-'
      skip (digits.length + 2 + (if tabs then 1 else 0))
      let (mark, literal) := markOf (← word fuel)
      let c ← get
      let line := c.rest.takeWhile (· ≠ '\n')
      let (body, after) := hereBody mark.toList tabs
        (Text.cutAfter (· = '\n') (c.rest.drop (line.length + 1)))
      let text := body.flatten
      let taken := (c.rest.filter (· = '\n')).length - 1 -
        (after.flatten.filter (· = '\n')).length
      set { c with rest := text }
      let inside ← if literal then pure [Part.text (String.ofList text) true]
        else quotedParts fuel none []
      set { c with
        rest := line ++ '\n' :: after.flatten
        readAhead := c.readAhead + taken }
      return some (.here (channel 0) inside)
    | '<' :: '&' :: _ => file 0 .duplicate 2
    | '<' :: _ => file 0 .input 1
    | '>' :: '&' :: _ => file 1 .duplicate 2
    | '>' :: '>' :: _ => file 1 .append 2
    | '>' :: '|' :: _ => file 1 .output 2
    | '>' :: _ => file 1 .output 1
    | _ => return none

def redirects : (fuel : Nat) → Read (List Redirect)
  | 0 => unterminated
  | fuel + 1 => do
    match ← redirect? fuel with
    | some r => return r :: (← redirects fuel)
    | none => return []

/-- The words and redirections of a simple command. -/
def simple : (fuel : Nat) → Nat → List (String × Word) → List Word → List Redirect → Read Command
  | 0, _, _, _, _ => unterminated
  | fuel + 1, line, assignments, words, given => do
    match ← redirect? fuel with
    | some r => simple fuel line assignments words (r :: given)
    | none =>
      let finish : Command := .simple line assignments.reverse words.reverse given.reverse
      let cs := (← get).rest
      match cs with
      | [] => return finish
      | c :: _ =>
        if c = '(' then
          match assignments, words, given with
          | [], [name], [] => definition fuel name
          | _, _, _ => return finish
        else if isMeta c then return finish
        else
          let name := cs.takeWhile isNameChar
          if words.isEmpty && isNameStart c && (cs.drop name.length).head? = some '=' then
            skip (name.length + 1)
            let w ← wordParts fuel []
            simple fuel line ((String.ofList name, w) :: assignments) words given
          else
            let w ← word fuel
            simple fuel line assignments (w :: words) given

/-- A function of the given name, whose opening bracket is next. -/
def definition : (fuel : Nat) → Word → Read Command
  | 0, _ => unterminated
  | fuel + 1, name => do
    skip 1
    blanks
    if (← peek) ≠ some ')' then expecting false ")"
    skip 1
    match functionName? name with
    | none => fail "Bad function name"
    | some name =>
      newlines fuel
      return .define name (← command fuel)

/-- The words after `in`. -/
def wordList : (fuel : Nat) → Read (List Word)
  | 0 => unterminated
  | fuel + 1 => do
    blanks
    match ← peek with
    | none => return []
    | some c =>
      if isMeta c then return []
      else
        let w ← word fuel
        return w :: (← wordList fuel)

/-- The patterns of one arm of a choice, up to the closing bracket. -/
def patterns : (fuel : Nat) → Read (List Word)
  | 0 => unterminated
  | fuel + 1 => do
    blanks
    match ← peek with
    | none => expecting false ")"
    | some c =>
      if isMeta c then
        skip 1
        expecting false ")"
      else
        let w ← word fuel
        blanks
        match ← peek with
        | some '|' =>
          skip 1
          return w :: (← patterns fuel)
        | some ')' =>
          skip 1
          return [w]
        | _ => expecting false ")"

def arms : (fuel : Nat) → Read (List (List Word × Command))
  | 0 => unterminated
  | fuel + 1 => do
    newlines fuel
    if (← peekKeyword) = some "esac" then
      skip 4
      return []
    else
      if (← peek) = some '(' then skip 1
      let ps ← patterns fuel
      let body ← commands fuel
      blanks
      if (← peekTwo) = [';', ';'] then
        skip 2
        return (ps, .sequence body) :: (← arms fuel)
      else if (← peekKeyword) = some "esac" then
        skip 4
        return [(ps, .sequence body)]
      else expecting true ";;"

/-- What follows a condition: its commands, then further conditions or the end. -/
def branches : (fuel : Nat) → Read Command
  | 0 => unterminated
  | fuel + 1 => do
    let test ← someCommands fuel
    keyword "then"
    let yes ← someCommands fuel
    match ← peekKeyword with
    | some "elif" =>
      skip 4
      return .branch test yes (some (← branches fuel))
    | some "else" =>
      skip 4
      let no ← someCommands fuel
      keyword "fi"
      return .branch test yes (some no)
    | _ =>
      keyword "fi"
      return .branch test yes none

def doGroup : (fuel : Nat) → Read Command
  | 0 => unterminated
  | fuel + 1 => do
    keyword "do"
    let body ← someCommands fuel
    keyword "done"
    return body

def compound : (fuel : Nat) → String → Read Command
  | 0, _ => unterminated
  | fuel + 1, w => do
    skip w.length
    if w = "if" then branches fuel
    else if w = "while" ∨ w = "until" then
      let test ← someCommands fuel
      return .loop (w = "while") test (← doGroup fuel)
    else if w = "for" then
      blanks
      let name := paramName true (← get).rest
      if !name.toList.head?.any isNameStart then
        if (← peek) = some '\n' then skip 1
        fail "Bad for loop variable"
      else
        skip name.length
        newlines fuel
        let words ← if (← peekKeyword) = some "in" then
            skip 2
            let ws ← wordList fuel
            if !((← peek) = some ';' || (← peek) = some '\n') then unexpected
            pure (some ws)
          else pure none
        if (← peekTwo) = [';', ';'] then unexpected
        if (← peek) = some ';' then skip 1
        newlines fuel
        return .each name words (← doGroup fuel)
    else if w = "case" then
      blanks
      if !(← peek).any (!isMeta ·) then unexpectedToken false " (expecting word)"
      let subject ← word fuel
      newlines fuel
      keyword "in"
      return .choose subject (← arms fuel)
    else if w = "\x7b" then
      let body ← someCommands fuel
      keyword "\x7d"
      return body
    else unexpected

def command : (fuel : Nat) → Read Command
  | 0 => unterminated
  | fuel + 1 => do
    match ← peekKeyword with
    | some w =>
      if closers.contains w || w = "in" || w = "!" then unexpected
      else
        let c ← compound fuel w
        let rs ← redirects fuel
        return if rs.isEmpty then c else .redirected c rs
    | none =>
      let c ← get
      match c.rest with
      | '(' :: _ =>
        skip 1
        let body ← someCommands fuel
        blanks
        if (← peek) = some ')' then
          skip 1
          let rs ← redirects fuel
          return if rs.isEmpty then .subshell body else .redirected (.subshell body) rs
        else expecting true ")"
      | [] => unexpected
      | d :: _ =>
        if isMeta d && d ≠ '<' && d ≠ '>' then unexpected
        else simple fuel c.line [] [] []

def pipeline : (fuel : Nat) → Read (List Command)
  | 0 => unterminated
  | fuel + 1 => do
    let first ← command fuel
    blanks
    match ← peekTwo with
    | '|' :: d =>
      if d = ['|'] then return [first]
      else
        skip 1
        newlines fuel
        return first :: (← pipeline fuel)
    | _ => return [first]

def negatable : (fuel : Nat) → Read Command
  | 0 => unterminated
  | fuel + 1 => do
    if (← peekKeyword) = some "!" then
      skip 1
      return .pipeline true (← pipeline fuel)
    else
      match ← pipeline fuel with
      | [c] => return c
      | stages => return .pipeline false stages

/-- What follows the first part of a chain of `&&` and `||`. -/
def chain : (fuel : Nat) → Command → Read Command
  | 0, _ => unterminated
  | fuel + 1, first => do
    blanks
    match ← peekTwo with
    | ['&', '&'] =>
      skip 2
      newlines fuel
      chain fuel (.both first (← negatable fuel))
    | ['|', '|'] =>
      skip 2
      newlines fuel
      chain fuel (.either first (← negatable fuel))
    | _ => return first

/-- Commands with what separates them, on one line or, when `long` holds, on several. -/
def listOf : (fuel : Nat) → (long : Bool) → Read (List Command)
  | 0, _ => unterminated
  | fuel + 1, long => do
    if long then newlines fuel else blanks
    let closed := match ← peekKeyword with
      | some w => closers.contains w
      | none => false
    match (← get).rest with
    | [] => return []
    | '\n' :: _ => return []
    | ')' :: _ => if long then return [] else unexpected
    | ';' :: ';' :: _ => if long then return [] else unexpected
    | ';' :: _ => unexpected
    | _ =>
      if closed then
        if long then return [] else unexpected
      else
        let c ← chain fuel (← negatable fuel)
        blanks
        match ← peekTwo with
        | [';', ';'] => if long then return [c] else unexpected
        | ';' :: _ =>
          skip 1
          return c :: (← listOf fuel long)
        | '&' :: _ =>
          skip 1
          return .background c :: (← listOf fuel long)
        | '\n' :: _ => if long then return c :: (← listOf fuel long) else return [c]
        | [] => return [c]
        | _ => if long then return [c] else unexpected

def commands : (fuel : Nat) → Read (List Command)
  | 0 => unterminated
  | fuel + 1 => listOf fuel true

/-- Commands of which there has to be one before anything else. -/
def someCommands : (fuel : Nat) → Read Command
  | 0 => unterminated
  | fuel + 1 => do
    match ← commands fuel with
    | [] => if (← peek).isSome then unexpected else return .sequence []
    | [c] => return c
    | cs => return .sequence cs

end

end Read

/-- The next full line of commands, if there is one. -/
def readLine (c : Cursor) : Except Trouble (Option (List Command × Cursor)) :=
  let size := 8 * c.rest.length + 64
  match Read.newlines (c.rest.length + 1) c with
  | .error e => .error e
  | .ok (_, c) =>
    if c.rest = [] then .ok none
    else match Read.listOf size false c with
      | .error e => .error e
      | .ok (cs, c) => .ok (some (cs, c))

/-- All lines of a script and the trouble in it. Each line takes at least one character. -/
def readAll : (fuel : Nat) → Cursor → List (List Command) × Option Trouble
  | 0, _ => ([], none)
  | fuel + 1, c =>
    match readLine c with
    | .error e => ([], some e)
    | .ok none => ([], none)
    | .ok (some (cs, c)) =>
      let (lines, trouble) := readAll fuel c
      (cs :: lines, trouble)

def readScript (text : String) : List (List Command) × Option Trouble :=
  readAll (text.length + 1) { rest := text.toList }

end DebugSession.Shell
