import DebugSession.Text.Quoted
import DebugSession.Toml.Lexeme

/-!
Quoted text as a string of a document. The two agree on the characters that are quoted as themselves or by
one letter behind a backslash. A code point in braces is no escape of a document, nor is `\0`.
-/

namespace DebugSession

namespace Text.Quoted

/-- Characters that quoting leaves alone or writes by an escape that documents have too. -/
def isShared (c : Char) : Bool :=
  c = '\t' || c = '\r' || c = '\n' ||
    (0x20 ≤ c.toNat && c.toNat ≠ 0x7F && (c.toNat < 0x7F || !isUnprintable c))

end Text.Quoted

namespace Toml

open Text (Quoted.isShared)

variable {c : Char} {read rest cs : List Char} {fuel : Nat}

/-- What quoting makes of a character, as a document reads it. -/
inductive Reading (c : Char) : List Char → Prop
  | plain : Quoted.isShared c → isShown c → c ≠ '"' → c ≠ '\\' → Reading c [c]
  | escaped (letter : Char) : Quoted.isShared c → (∀ rest, escape (letter :: rest) = some (c, rest)) →
      Reading c ['\\', letter]
  | foreign (written : List Char) : Quoted.isShared c = false →
      (∀ rest, escape (written ++ rest) = none) → Reading c ('\\' :: written)

end Toml

end DebugSession
