/-!
Cutting a list at marked elements and stripping its ends, for octets and characters alike.
-/

namespace DebugSession

/-- Octets of a file, a stream or a path. -/
abbrev Bytes := List UInt8

namespace Text

variable {α : Type}

/-- Cuts after each marked element. An unmarked rest is the last piece, so no piece is empty. -/
def cutAfter (mark : α → Bool) (xs : List α) : List (List α) :=
  xs.foldr (fun x pieces ↦
    if mark x then [x] :: pieces
    else match pieces with
      | [] => [[x]]
      | piece :: rest => (x :: piece) :: rest) []

/-- Cuts at each marked element and drops it. There is one more piece than there are marks. -/
def cutAt (mark : α → Bool) (xs : List α) : List (List α) :=
  xs.foldr (fun x pieces ↦
    if mark x then [] :: pieces
    else match pieces with
      | [] => [[x]]
      | piece :: rest => (x :: piece) :: rest) [[]]

def trimEnd (junk : α → Bool) (xs : List α) : List α :=
  (xs.reverse.dropWhile junk).reverse

def trimBoth (junk : α → Bool) (xs : List α) : List α :=
  trimEnd junk (xs.dropWhile junk)

end Text

end DebugSession
