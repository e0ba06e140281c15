import DebugSession.Text.Cut

/-!
Shell scripts as trees. All text of a script is octets, each of them held as the character with its
number.
-/

namespace DebugSession.Shell

def octets (bs : Bytes) : String := String.ofList (bs.map fun b ↦ Char.ofNat b.toNat)

def toBytes (s : String) : Bytes := s.toList.map fun c ↦ UInt8.ofNat c.toNat

/-- What a parameter in braces asks for besides its value. -/
inductive Use where
  | orElse
  | orAssign
  | orFail
  | instead
  | dropShortFront
  | dropLongFront
  | dropShortBack
  | dropLongBack
  deriving DecidableEq, Repr

/-- Whether a part of the value is dropped that fits a pattern. -/
def Use.isDrop : Use → Bool
  | .dropShortFront | .dropLongFront | .dropShortBack | .dropLongBack => true
  | _ => false

inductive Flow where
  | input
  | output
  | append
  | duplicate
  deriving DecidableEq, Repr

mutual

/-- A piece of a word. Quoted pieces are neither split nor matched against file names. -/
inductive Part where
  | text (s : String) (quoted : Bool)
  | param (name : String) (quoted : Bool)
  | length (name : String) (quoted : Bool)
  /-- `nonEmpty` asks for more than being set. -/
  | paramUse (name : String) (use : Use) (nonEmpty : Bool) (word : List Part) (quoted : Bool)
  | output (body : List Command) (quoted : Bool)
  | sum (expression : List Part) (quoted : Bool)
  /-- Braces around something that is no parameter. -/
  | bad

inductive Redirect where
  | file (channel : Nat) (flow : Flow) (word : List Part)
  | here (channel : Nat) (text : List Part)

inductive Command where
  | simple (line : Nat) (assignments : List (String × List Part)) (words : List (List Part))
      (redirects : List Redirect)
  | pipeline (negated : Bool) (stages : List Command)
  | both (a b : Command)
  | either (a b : Command)
  | sequence (commands : List Command)
  | background (c : Command)
  | branch (test yes : Command) (no : Option Command)
  | loop (whileTrue : Bool) (test body : Command)
  /-- Without words it goes over the positional parameters. -/
  | each (name : String) (words : Option (List (List Part))) (body : Command)
  | choose (word : List Part) (arms : List (List (List Part) × Command))
  | subshell (c : Command)
  | define (name : String) (body : Command)
  | redirected (c : Command) (redirects : List Redirect)

end

abbrev Word := List Part

/-- A tilde in front of a word or of its first slash means the home directory. -/
def homeward : Word → Word
  | .text s false :: rest =>
    match s.toList with
    | '~' :: more =>
      if more = [] ∨ more.head? = some '/' then
        .param "HOME" true :: .text (String.ofList more) false :: rest
      else .text s false :: rest
    | _ => .text s false :: rest
  | w => w

end DebugSession.Shell
