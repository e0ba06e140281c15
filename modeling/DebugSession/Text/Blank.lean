import DebugSession.Text.Cut

/-!
Blanks, words and lines of a text.
-/

namespace DebugSession.Text

/-- The characters with the Unicode property `White_Space`. -/
def isBlank (c : Char) : Bool :=
  (9 ≤ c.toNat && c.toNat ≤ 13) || c.toNat = 0x20 || c.toNat = 0x85 || c.toNat = 0xA0 ||
  c.toNat = 0x1680 || (0x2000 ≤ c.toNat && c.toNat ≤ 0x200A) || c.toNat = 0x2028 ||
  c.toNat = 0x2029 || c.toNat = 0x202F || c.toNat = 0x205F || c.toNat = 0x3000

def trim (s : String) : String :=
  String.ofList (trimBoth isBlank s.toList)

/-- The longest runs of characters that are not blank. -/
def words (s : String) : List String :=
  ((cutAt isBlank s.toList).filter (· ≠ [])).map String.ofList

def isNewline (c : Char) : Bool := c = '\n'

def isLineEnd (c : Char) : Bool := c = '\r' || c = '\n'

/-- A line ends at a newline, which takes a carriage return in front of it along. -/
def dropLineEnd (line : List Char) : List Char :=
  match line.reverse with
  | '\n' :: '\r' :: rest => rest.reverse
  | '\n' :: rest => rest.reverse
  | _ => line

def lines (s : String) : List String :=
  (cutAfter isNewline s.toList).map (String.ofList ∘ dropLineEnd)

/-- Without the carriage returns and newlines at its end. -/
def chomp (s : String) : String :=
  String.ofList (trimEnd isLineEnd s.toList)

def startsWith (s lead : String) : Bool :=
  lead.toList.isPrefixOf s.toList

/-- The rest of `s` after `lead`. -/
def after? (lead s : String) : Option String :=
  if startsWith s lead then some (String.ofList (s.toList.drop lead.toList.length)) else none

end DebugSession.Text
