import DebugSession.Fault
import DebugSession.Text.Utf8

/-!
Where output goes. A sink may have room for a number of octets only: a write that does not fit is cut
where the room ends, and fails.
-/

namespace DebugSession

structure Sink where
  /-- Newest first. -/
  pieces : List Bytes := []
  room : Option Nat := none
  deriving DecidableEq, Repr

namespace Sink

def bytes (s : Sink) : Bytes := s.pieces.reverse.flatten

def write (bs : Bytes) (s : Sink) : Except IoError Unit × Sink :=
  match s.room with
  | none => (.ok (), { s with pieces := bs :: s.pieces })
  | some n =>
    if bs.length ≤ n then (.ok (), ⟨bs :: s.pieces, some (n - bs.length)⟩)
    else (.error .sinkFull, ⟨bs.take n :: s.pieces, some 0⟩)

def writeText (text : String) (s : Sink) : Except IoError Unit × Sink := s.write (Utf8.encode text)

theorem bytes_cons (bs : Bytes) (pieces : List Bytes) (room : Option Nat) :
    bytes ⟨bs :: pieces, room⟩ = bytes ⟨pieces, none⟩ ++ bs := by
  simp [bytes]

variable {bs : Bytes} {n : Nat}

theorem write_of_unlimited (bs : Bytes) (pieces : List Bytes) :
    write bs ⟨pieces, none⟩ = (.ok (), ⟨bs :: pieces, none⟩) := rfl

theorem write_of_fits (h : bs.length ≤ n) (pieces : List Bytes) :
    write bs ⟨pieces, some n⟩ = (.ok (), ⟨bs :: pieces, some (n - bs.length)⟩) := by
  simp [write, h]

theorem write_of_overflows (h : n < bs.length) (pieces : List Bytes) :
    write bs ⟨pieces, some n⟩ = (.error .sinkFull, ⟨bs.take n :: pieces, some 0⟩) := by
  simp [write, Nat.not_le.mpr h]

end Sink

end DebugSession
