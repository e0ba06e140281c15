import DebugSession.Host.Child
import DebugSession.Log.Event
import DebugSession.Remote.Connection
import DebugSession.Sink

/-!
The machine that a debugger runs on: files, variables, streams and a network, all of them values.
-/

namespace DebugSession.Host

structure Machine where
  disk : Disk
  cwd : Place
  vars : List (String × Bytes) := []
  /-- What the debugger has taken from its input and not used yet. -/
  typed : Bytes := []
  /-- What is left of the input, which the children of the debugger share. -/
  input : Bytes := []
  stdout : Sink := {}
  stderr : Sink := {}
  network : Remote.Network := fun _ ↦ .error (.system .networkUnreachable)
  runner : Runner := Site.run
  /-- Newest first. -/
  log : List Event := []

namespace Machine

def files (m : Machine) : Files := m.disk.files m.cwd

def valueOf (m : Machine) (name : String) : Option Bytes := m.vars.lookup name

def setVariable (m : Machine) (name : String) (value : Bytes) : Machine :=
  { m with vars := (name, value) :: m.vars.filter (·.1 ≠ name) }

def unsetVariable (m : Machine) (name : String) : Machine :=
  { m with vars := m.vars.filter (·.1 ≠ name) }

def note (m : Machine) (e : Event) : Machine := { m with log := e :: m.log }

def noteAll (m : Machine) (es : List Event) : Machine := { m with log := es.reverse ++ m.log }

/-- The home directory of an account whose variables do not name one. -/
def accountHome : Path := .ofText "/root"

def home (m : Machine) : Path :=
  match m.valueOf "HOME" with
  | none => accountHome
  | some [] => accountHome
  | some bs => ⟨bs⟩

/-- The user's configuration directory. The variable counts only if it names an absolute path. -/
def configDir (m : Machine) : Path :=
  (((m.valueOf "XDG_CONFIG_HOME").map Path.mk).filter Path.isAbsolute).getD
    (m.home.join (.ofText ".config"))

def configPlaces (m : Machine) : Lookup.ConfigPlaces where
  home := m.home
  named := m.valueOf "STEPLINE_CONFIG"
  configDir := m.configDir

/-- The debugger takes its input in pieces of this size. -/
def pieceSize : Nat := 8192

/-- Uses up `n` octets of the input. Whole pieces are taken as long as the ones before do not reach. -/
def consume (m : Machine) (n : Nat) : Machine :=
  if n ≤ m.typed.length then { m with typed := m.typed.drop n }
  else
    let due := n - m.typed.length
    let taken := (due + pieceSize - 1) / pieceSize * pieceSize
    { m with typed := (m.input.take taken).drop due, input := m.input.drop taken }

/-- Everything that the debugger can still read. -/
def readable (m : Machine) : Bytes := m.typed ++ m.input

/-- Takes over what reading lines of the input left of it. -/
def keepLines (m : Machine) (rest : List Bytes) : Machine :=
  m.consume (m.readable.length - rest.flatten.length)

def site (m : Machine) : Site := { disk := m.disk, cwd := m.cwd, vars := m.vars, input := m.input }

/-- Runs a child. What it did to the disk and what it took of the input stays so. -/
def runChild (m : Machine) (order : Order) (outputs : Nat) : Except IoError (Child × Machine) :=
  (m.runner m.site order outputs).map fun (child, disk, input) ↦ (child, { m with disk, input })

theorem runChild_eq_ok_iff {m m' : Machine} {order : Order} {outputs : Nat} {child : Child} :
    m.runChild order outputs = .ok (child, m') ↔
      ∃ disk input, m.runner m.site order outputs = .ok (child, disk, input) ∧
        m' = { m with disk, input } := by
  rw [runChild]
  cases m.runner m.site order outputs with
  | error e => simp [Except.map]
  | ok left => simp [Except.map, Prod.ext_iff, and_assoc, eq_comm]

/-- Programs that are found on every host. -/
def tools : List (String × Tool) :=
  [("sh", .shell), ("dash", .shell), ("echo", .echo), ("printf", .printf), ("true", .true),
    ("false", .false), ("test", .test), ("[", .test), ("sleep", .sleep), ("cat", .cat),
    ("grep", .grep), ("basename", .basename), ("dirname", .dirname), ("env", .env)]

def systemPath : Bytes :=
  Utf8.encode "/usr/local/sbin:/usr/local/bin:/usr/sbin:/usr/bin:/sbin:/bin"

def placeOf (text : String) : Place := (Path.ofText text).names

/-- A host as it is before anybody uses it. -/
def systemDisk : Disk where
  entries :=
    (["/bin", "/sbin", "/usr", "/usr/bin", "/usr/sbin", "/usr/local", "/usr/local/bin",
      "/usr/local/sbin", "/tmp", "/etc", "/home", "/root", "/dev", "/var", "/var/tmp"].map
      fun dir ↦ (placeOf dir, Entry.directory)) ++
    (["/bin", "/usr/bin"].flatMap fun dir ↦
      tools.map fun tool ↦ (placeOf dir ++ [Utf8.encode tool.1], Entry.tool tool.2)) ++
    [(placeOf "/dev/null", Entry.null)]

end Machine

end DebugSession.Host
