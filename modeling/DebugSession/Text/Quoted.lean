import DebugSession.Text.Unprintable

/-!
Quoted text: a string between double quotes with an escape for every character that would not
show, and lists of such strings.
-/

namespace DebugSession.Text.Quoted

/-- A code point in braces, in lower-case hexadecimal digits without leading zeros. -/
def codePoint (c : Char) : List Char :=
  ['\\', 'u', '\x7b'] ++ Nat.toDigits 16 c.toNat ++ ['\x7d']

def escape (c : Char) : List Char :=
  if c = '\x00' then ['\\', '0']
  else if c = '\t' then ['\\', 't']
  else if c = '\r' then ['\\', 'r']
  else if c = '\n' then ['\\', 'n']
  else if c = '"' then ['\\', '"']
  else if c = '\\' then ['\\', '\\']
  else if c.toNat < 0x20 ∨ c.toNat = 0x7F then codePoint c
  else if c.toNat < 0x7F then [c]
  else if isUnprintable c then codePoint c
  else [c]

def text (s : String) : String :=
  String.ofList ('"' :: s.toList.flatMap escape ++ ['"'])

/-- One item on each line, indented by four and followed by a comma. -/
def list (items : List String) : String :=
  if items.isEmpty then "[]"
  else "[\n" ++ String.join (items.map fun item ↦ "    " ++ text item ++ ",\n") ++ "]"

end DebugSession.Text.Quoted
