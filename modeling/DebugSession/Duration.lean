import DebugSession.Text.Decimal

/-!
Time spans: whole seconds of 64 bits and a fraction in nanoseconds.
-/

namespace DebugSession

structure Duration where
  seconds : UInt64
  nanos : Fin 1000000000
  deriving DecidableEq, Repr

namespace Duration

def ofSeconds (s : UInt64) : Duration := ⟨s, 0⟩

def ofMillis (ms : Nat) : Duration :=
  ⟨UInt64.ofNat (ms / 1000), ⟨ms % 1000 * 1000000, by omega⟩⟩

def toNanos (d : Duration) : Nat := d.seconds.toNat * 1000000000 + d.nanos.val

/-- Whole milliseconds, the rest dropped. -/
def toMillis (d : Duration) : Nat := d.toNanos / 1000000

/-- In seconds when no whole millisecond is left over, else in milliseconds. -/
def text (d : Duration) : String :=
  if d.nanos.val / 1000000 = 0 then Decimal.text d.seconds.toNat ++ "s"
  else Decimal.text d.toMillis ++ "ms"

/-- Seconds with the fewest decimals that tell the span exactly, at least one. -/
def secondsText (d : Duration) : String :=
  let fraction := Decimal.digits (1000000000 + d.nanos.val) |>.drop 1
  let shown := (fraction.reverse.dropWhile (· = '0')).reverse
  Decimal.text d.seconds.toNat ++ "." ++ (if shown = [] then "0" else String.ofList shown)

end Duration

end DebugSession
