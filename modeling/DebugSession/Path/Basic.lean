import DebugSession.Text.Utf8

/-!
File paths as octets. `join` puts one slash between its parts, and two paths name the same place by
their text when their components agree, so doubled slashes and inner `.` do not count.
-/

namespace DebugSession

structure Path where
  bytes : Bytes
  deriving DecidableEq, Repr

namespace Path

def slash : UInt8 := 0x2F

def dot : Bytes := [0x2E]

def dotDot : Bytes := [0x2E, 0x2E]

def ofText (s : String) : Path := ⟨Utf8.encode s⟩

/-- The path as text, with U+FFFD for what is not UTF-8. -/
def text (p : Path) : String := Utf8.decodeLossy p.bytes

def isAbsolute (p : Path) : Bool := p.bytes.head? = some slash

def endsInSlash (p : Path) : Bool := p.bytes.getLast? = some slash

/-- An absolute `q` replaces `p`. -/
def join (p q : Path) : Path :=
  if q.isAbsolute then q
  else if p.bytes = [] ∨ p.endsInSlash then ⟨p.bytes ++ q.bytes⟩
  else ⟨p.bytes ++ slash :: q.bytes⟩

/-- The names between slashes without the empty ones, `.` and `..` included. -/
def names (p : Path) : List Bytes :=
  (Text.cutAt (· = slash) p.bytes).filter (· ≠ [])

/-- The names that count: `..` stays and `.` goes. -/
def steps (p : Path) : List Bytes :=
  p.names.filter (· ≠ dot)

/-- A relative path that begins with `.`. -/
def startsHere (p : Path) : Bool :=
  !p.isAbsolute && p.names.head? = some dot

/-- Equal root, equal leading `.` and equal steps. -/
def sameText (p q : Path) : Bool :=
  p.isAbsolute = q.isAbsolute && p.startsHere = q.startsHere && p.steps = q.steps

/-- The last step, unless there is none or it is `..`. -/
def fileName? (p : Path) : Option Bytes :=
  p.steps.getLast?.filter (· ≠ dotDot)

/-- The file name as text, or the whole path when it has none. -/
def shortText (p : Path) : String :=
  match p.fileName? with
  | some name => Utf8.decodeLossy name
  | none => p.text

end Path

end DebugSession
