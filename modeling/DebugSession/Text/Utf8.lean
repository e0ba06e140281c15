import DebugSession.Text.Cut

/-!
UTF-8. A decoder eats one octet at a time. `decode?` accepts exactly the well-formed texts and
`decodeLossy` puts U+FFFD in the place of each longest ill-formed piece.
-/

namespace DebugSession.Utf8

/-- A sequence that has begun: how many octets it still needs, the range of the next one, and the
bits read so far. -/
structure Open where
  due : Nat
  low : UInt8
  high : UInt8
  bits : Nat

/-- `read` is newest first; `none` in it stands for an ill-formed piece. -/
structure Decoder where
  read : List (Option Char)
  begun : Option Open

def Decoder.start (read : List (Option Char)) (b : UInt8) : Decoder :=
  if b < 0x80 then ⟨some (Char.ofNat b.toNat) :: read, none⟩
  else if 0xC2 ≤ b ∧ b ≤ 0xDF then ⟨read, some ⟨1, 0x80, 0xBF, b.toNat - 0xC0⟩⟩
  else if b = 0xE0 then ⟨read, some ⟨2, 0xA0, 0xBF, 0⟩⟩
  else if b = 0xED then ⟨read, some ⟨2, 0x80, 0x9F, 0xD⟩⟩
  else if 0xE1 ≤ b ∧ b ≤ 0xEF then ⟨read, some ⟨2, 0x80, 0xBF, b.toNat - 0xE0⟩⟩
  else if b = 0xF0 then ⟨read, some ⟨3, 0x90, 0xBF, 0⟩⟩
  else if b = 0xF4 then ⟨read, some ⟨3, 0x80, 0x8F, 4⟩⟩
  else if 0xF1 ≤ b ∧ b ≤ 0xF3 then ⟨read, some ⟨3, 0x80, 0xBF, b.toNat - 0xF0⟩⟩
  else ⟨none :: read, none⟩

/-- An octet that does not continue the sequence begun ends it as ill-formed and is read afresh. -/
def Decoder.step (d : Decoder) (b : UInt8) : Decoder :=
  match d.begun with
  | none => .start d.read b
  | some o =>
    if o.low ≤ b ∧ b ≤ o.high then
      let bits := o.bits * 64 + (b.toNat - 0x80)
      if o.due ≤ 1 then ⟨some (Char.ofNat bits) :: d.read, none⟩
      else ⟨d.read, some ⟨o.due - 1, 0x80, 0xBF, bits⟩⟩
    else .start (none :: d.read) b

def Decoder.finish (d : Decoder) : List (Option Char) :=
  match d.begun with
  | none => d.read.reverse
  | some _ => (none :: d.read).reverse

/-- The characters and ill-formed pieces of `bs`, in order. -/
def pieces (bs : Bytes) : List (Option Char) :=
  (bs.foldl Decoder.step ⟨[], none⟩).finish

def decode? (bs : Bytes) : Option String :=
  let ps := pieces bs
  if ps.all Option.isSome then some (String.ofList (ps.filterMap id)) else none

def decodeLossy (bs : Bytes) : String :=
  String.ofList ((pieces bs).map (·.getD '\uFFFD'))

def encode (s : String) : Bytes :=
  s.toList.flatMap String.utf8EncodeChar

end DebugSession.Utf8
