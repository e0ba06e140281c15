import DebugSession.Files

/-!
A file system in memory: directories, files and links by their places. A place is the list of names
from the root without links, `.` or `..`; paths become places by walking along them.
-/

namespace DebugSession.Host

/-- The names from the root. -/
abbrev Place := List Bytes

/-- Programs that a host runs itself. -/
inductive Tool where
  | shell
  | echo
  | printf
  | true
  | false
  | test
  | sleep
  | cat
  | grep
  | basename
  | dirname
  | env
  deriving DecidableEq, Repr

inductive Entry where
  | file (content : Bytes) (exec : Bool)
  | directory
  | link (target : Path)
  | tool (t : Tool)
  /-- Empty to read, and whatever is written to it is gone. -/
  | null
  deriving DecidableEq, Repr

/-- Every place has at most one entry; the root needs none. -/
structure Disk where
  entries : List (Place × Entry) := []

namespace Disk

def get? (d : Disk) (p : Place) : Option Entry :=
  if p = [] then some .directory
  else (d.entries.find? fun e ↦ e.1 = p).map (·.2)

def put (d : Disk) (p : Place) (e : Entry) : Disk :=
  if d.entries.any (fun old ↦ old.1 = p) then
    ⟨d.entries.map fun old ↦ if old.1 = p then (p, e) else old⟩
  else ⟨d.entries ++ [(p, e)]⟩

/-- The longest name and, one more than allowed, the longest path. -/
def nameLimit : Nat := 255

def pathLimit : Nat := 4096

/-- So many links may be followed on one walk. -/
def linkLimit : Nat := 40

/-- The names to walk. A slash at the end asks for a directory, as a last `.` does. -/
def stepsOf (p : Path) : List Bytes := p.names ++ (if p.endsInSlash then [Path.dot] else [])

/-- The place that `steps` lead to from `here`. The last step may be missing; it is a link that stays
as it is when `follow` does not hold. -/
def walk (d : Disk) (follow : Bool) (links : Nat) (here : Place) : List Bytes → Except Errno Place
  | [] => .ok here
  | step :: steps =>
    if nameLimit < step.length then .error .nameTooLong
    else if d.get? here ≠ some .directory then .error .notADirectory
    else if step = Path.dot then walk d follow links here steps
    else if step = Path.dotDot then walk d follow links here.dropLast steps
    else
      let next := here ++ [step]
      match d.get? next with
      | none => if steps = [] then .ok next else .error .noEntry
      | some (.link target) =>
        if steps = [] ∧ follow = false then .ok next
        else match links with
          | 0 => .error .tooManyLinks
          | links + 1 =>
            walk d follow links (if target.isAbsolute then [] else here) (stepsOf target ++ steps)
      | some .directory => walk d follow links next steps
      | some _ => if steps = [] then .ok next else .error .notADirectory
  termination_by steps => (links, steps.length)

/-- The place of a path, seen from the directory `cwd`. -/
def locate (d : Disk) (cwd : Place) (follow : Bool) (p : Path) : Except IoError Place :=
  if p.bytes.contains 0 then .error .nulInPath
  else if p.bytes = [] then .error (.system .noEntry)
  else if pathLimit ≤ p.bytes.length then .error (.system .nameTooLong)
  else (d.walk follow linkLimit (if p.isAbsolute then [] else cwd) (stepsOf p)).mapError .system

/-- What is at a path, and where. -/
def find (d : Disk) (cwd : Place) (p : Path) : Except IoError (Place × Entry) := do
  let place ← d.locate cwd true p
  match d.get? place with
  | some e => return (place, e)
  | none => throw (.system .noEntry)

def read (d : Disk) (cwd : Place) (p : Path) : Except IoError Bytes := do
  match ← d.find cwd p with
  | (_, .file content _) => return content
  | (_, .directory) => throw (.system .isADirectory)
  | _ => return []

def readText (d : Disk) (cwd : Place) (p : Path) : Except IoError String := do
  match Utf8.decode? (← d.read cwd p) with
  | some s => return s
  | none => throw .notUtf8

/-- Where the thing at a path is. The links are read one by one, so the path may be of any length. -/
def place? (d : Disk) (cwd : Place) (p : Path) : Option Place :=
  if p.bytes.contains 0 ∨ p.bytes = [] then none
  else (d.walk true linkLimit (if p.isAbsolute then [] else cwd) (stepsOf p)).toOption.filter
    fun place ↦ (d.get? place).isSome

def pathOf (place : Place) : Path := ⟨Path.slash :: (List.intersperse [Path.slash] place).flatten⟩

def files (d : Disk) (cwd : Place) : Files where
  currentDir := .ok (pathOf cwd)
  isPresent p := (d.find cwd p).toOption.isSome
  readText p := d.readText cwd p
  canonical? p := (d.place? cwd p).map pathOf

/-- The directory that `steps` lead to, with the missing ones on the way made. -/
def makeDirectory (d : Disk) (here : Place) : List Bytes → Disk × Place
  | [] => (d, here)
  | step :: steps =>
    match d.walk true linkLimit here [step] with
    | .error _ => (d, here)
    | .ok next =>
      let d := if (d.get? next).isNone then d.put next .directory else d
      makeDirectory d next steps

/-- Puts an entry at a path, with the directories on the way. A file goes where a link at the path
leads. -/
def write (d : Disk) (cwd : Place) (p : Path) (e : Entry) : Disk :=
  let start := if p.isAbsolute then [] else cwd
  match e with
  | .directory => (d.makeDirectory start p.names).1
  | _ =>
    let (d, parent) := d.makeDirectory start p.names.dropLast
    let follow := match e with
      | .link _ => false
      | _ => true
    match d.walk follow linkLimit parent (p.names.drop (p.names.length - 1)) with
    | .ok place => d.put place e
    | .error _ => d

/-- In the order of their octets. -/
def namesIn (d : Disk) (dir : Place) : List Bytes :=
  (d.entries.filterMap fun e ↦
    if e.1.dropLast = dir then e.1.getLast? else none).mergeSort fun a b ↦ !decide (b < a)

/-- Everything below a directory, each entry before what is in it. -/
def below (d : Disk) (dir : Place) : (depth : Nat) → List (Place × Entry)
  | 0 => []
  | depth + 1 =>
    (d.namesIn dir).flatMap fun name ↦
      match d.get? (dir ++ [name]) with
      | some e => (dir ++ [name], e) :: d.below (dir ++ [name]) depth
      | none => []

def listing (d : Disk) (dir : Place) : List (Place × Entry) := d.below dir (d.entries.length + 1)

end Disk

end DebugSession.Host
