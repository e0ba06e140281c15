/-!
The lexical parts of TOML: blanks, comments, keys and strings. A reader takes its part off the front
of a text and gives the rest, or refuses.
-/

namespace DebugSession.Toml

abbrev Reader (α : Type) := List Char → Option (α × List Char)

def isSpace (c : Char) : Bool := c = ' ' || c = '\t'

def skipSpace (cs : List Char) : List Char := cs.dropWhile isSpace

/-- A character that may stand in a comment: a tab or anything that is not a control. -/
def isShown (c : Char) : Bool :=
  c = '\t' || (0x20 ≤ c.toNat && c.toNat ≠ 0x7F)

/-- The rest after a newline, if one is there. -/
def newline? : List Char → Option (List Char)
  | '\n' :: rest => some rest
  | '\r' :: '\n' :: rest => some rest
  | _ => none

/-- The rest after a comment, or the whole text where none begins. -/
def skipComment : List Char → List Char
  | '#' :: rest => rest.dropWhile isShown
  | cs => cs

/-- Spaces, newlines and comments, each newline counted against `fuel`. -/
def skipLines : Nat → List Char → List Char
  | 0, cs => cs
  | fuel + 1, cs =>
    let rest := skipComment (skipSpace cs)
    match newline? rest with
    | some rest => skipLines fuel rest
    | none => rest

def skipGap (cs : List Char) : List Char := skipLines (cs.length + 1) cs

def hexValue? (c : Char) : Option Nat :=
  if c.isDigit then some (c.toNat - 48)
  else if 'a' ≤ c ∧ c ≤ 'f' then some (c.toNat - 87)
  else if 'A' ≤ c ∧ c ≤ 'F' then some (c.toNat - 55)
  else none

/-- A scalar value in exactly `n` hexadecimal digits. -/
def codePoint (n : Nat) : Reader Char := fun cs ↦
  let digits := cs.take n
  if digits.length = n ∧ digits.all fun c ↦ (hexValue? c).isSome then
    let code := digits.foldl (fun v c ↦ 16 * v + (hexValue? c).getD 0) 0
    if code < 0xD800 ∨ (0xDFFF < code ∧ code < 0x110000) then some (Char.ofNat code, cs.drop n)
    else none
  else none

/-- What follows a backslash. -/
def escape : Reader Char
  | 'b' :: rest => some ('\x08', rest)
  | 't' :: rest => some ('\t', rest)
  | 'n' :: rest => some ('\n', rest)
  | 'f' :: rest => some ('\x0c', rest)
  | 'r' :: rest => some ('\r', rest)
  | 'e' :: rest => some ('\x1b', rest)
  | '"' :: rest => some ('"', rest)
  | '\\' :: rest => some ('\\', rest)
  | 'x' :: rest => codePoint 2 rest
  | 'u' :: rest => codePoint 4 rest
  | 'U' :: rest => codePoint 8 rest
  | _ => none

/-- The inside of a string in double quotes, up to the closing one. -/
def basicBody : Nat → List Char → Reader String
  | 0, _, _ => none
  | _ + 1, _, [] => none
  | _ + 1, read, '"' :: rest => some (String.ofList read.reverse, rest)
  | fuel + 1, read, '\\' :: rest =>
    match escape rest with
    | some (c, rest) => basicBody fuel (c :: read) rest
    | none => none
  | fuel + 1, read, c :: rest => if isShown c then basicBody fuel (c :: read) rest else none

/-- The inside of a string in single quotes: no escapes. -/
def literalBody (cs : List Char) : Option (String × List Char) :=
  let inside := cs.takeWhile fun c ↦ c ≠ '\'' && isShown c
  match cs.drop inside.length with
  | '\'' :: rest => some (String.ofList inside, rest)
  | _ => none

/-- Spaces and newlines. -/
def skipBreaks : Nat → List Char → List Char
  | 0, cs => cs
  | fuel + 1, cs =>
    match newline? (skipSpace cs) with
    | some rest => skipBreaks fuel rest
    | none => skipSpace cs

/-- A backslash at the end of a line joins the line to the next text: the rest after all spaces and
newlines, if a newline is the first thing there that is not a space. -/
def joinedLine? (cs : List Char) : Option (List Char) :=
  (newline? (skipSpace cs)).map fun rest ↦ skipBreaks rest.length rest

/-- One or two quotes may stand directly before the three that close a long string. -/
def closeLong (quote : Char) (read rest : List Char) : String × List Char :=
  let extra := (rest.takeWhile (· = quote)).take 2
  (String.ofList (read.reverse ++ extra), rest.drop extra.length)

/-- The inside of a string in three double quotes. -/
def longBasicBody : Nat → List Char → Reader String
  | 0, _, _ => none
  | _ + 1, _, [] => none
  | _ + 1, read, '"' :: '"' :: '"' :: rest => some (closeLong '"' read rest)
  | fuel + 1, read, '\\' :: rest =>
    match joinedLine? rest with
    | some rest => longBasicBody fuel read rest
    | none =>
      match escape rest with
      | some (c, rest) => longBasicBody fuel (c :: read) rest
      | none => none
  | fuel + 1, read, '\r' :: '\n' :: rest => longBasicBody fuel ('\n' :: '\r' :: read) rest
  | fuel + 1, read, c :: rest =>
    if c = '\n' || isShown c then longBasicBody fuel (c :: read) rest else none

/-- The inside of a string in three single quotes. -/
def longLiteralBody : Nat → List Char → Reader String
  | 0, _, _ => none
  | _ + 1, _, [] => none
  | _ + 1, read, '\'' :: '\'' :: '\'' :: rest => some (closeLong '\'' read rest)
  | fuel + 1, read, '\r' :: '\n' :: rest => longLiteralBody fuel ('\n' :: '\r' :: read) rest
  | fuel + 1, read, c :: rest =>
    if c = '\n' || isShown c then longLiteralBody fuel (c :: read) rest else none

/-- A newline right after the opening quotes of a long string does not belong to it. -/
def afterOpening (cs : List Char) : List Char := (newline? cs).getD cs

/-- A string of any of the four forms. -/
def stringLexeme : Reader String
  | '"' :: '"' :: '"' :: rest => longBasicBody (rest.length + 1) [] (afterOpening rest)
  | '\'' :: '\'' :: '\'' :: rest => longLiteralBody (rest.length + 1) [] (afterOpening rest)
  | '"' :: rest => basicBody (rest.length + 1) [] rest
  | '\'' :: rest => literalBody rest
  | _ => none

def isBareKey (c : Char) : Bool := c.isAlphanum || c = '_' || c = '-'

/-- One step of a key: bare, or a string of one line. -/
def simpleKey : Reader String
  | '"' :: rest => basicBody (rest.length + 1) [] rest
  | '\'' :: rest => literalBody rest
  | cs =>
    match cs.takeWhile isBareKey with
    | [] => none
    | name => some (String.ofList name, cs.dropWhile isBareKey)

/-- Keys and values nest this deep at most. -/
def nestingLimit : Nat := 80

/-- The steps after the first one, each behind a dot that spaces may surround. -/
def moreKeys : Nat → List Char → Option (List String × List Char)
  | 0, _ => none
  | fuel + 1, cs =>
    match skipSpace cs with
    | '.' :: rest =>
      match simpleKey (skipSpace rest) with
      | some (key, rest) => (moreKeys fuel rest).map fun found ↦ (key :: found.1, found.2)
      | none => none
    | _ => some ([], cs)

/-- A dotted key as the steps on the way and the last one. -/
def dottedKey : Reader (List String × String) := fun cs ↦
  match simpleKey cs with
  | none => none
  | some (first, rest) =>
    match moreKeys nestingLimit rest with
    | none => none
    | some (more, rest) =>
      let keys := first :: more
      some ((keys.dropLast, keys.getLastD first), rest)

end DebugSession.Toml
