import DebugSession.CommandLine.Help
import DebugSession.CommandLine.Parse
import DebugSession.Host.Services
import DebugSession.Log.Filter

/-!
The debugger as a program: from its arguments and the machine it runs on to its exit status and all
that it leaves behind.
-/

namespace DebugSession.Program

def version : String := "0.3.1"

structure Report where
  status : Int
  stdout : Bytes := []
  stderr : Bytes := []
  /-- The lines of the log that its filter lets through. -/
  log : List String := []

def failure (message : String) : Bytes := Utf8.encode ("Error: " ++ message ++ "\n")

/-- What a machine shows of a run that ended with `status` and said `last`. -/
def report (rules : List Log.Rule) (m : Host.Machine) (status : Int) (last : Bytes) : Report where
  status := status
  stdout := m.stdout.bytes
  stderr := m.stderr.bytes ++ last
  log := (m.log.reverse.filter (Log.shows rules)).map Event.line

def environment (config : Config) (m : Host.Machine) : Session.Environment :=
  let files := m.files
  let cwd := files.currentDir.toOption.getD ⟨[]⟩
  { files
    searchPath := m.valueOf "PATH"
    rcPaths := InitScript.candidates files cwd (some m.home) config.rcFile
    version
    helpText := CommandLine.helpText }

/-- A configuration that cannot be found or loaded ends every run, also one that only asks for the
version. -/
def invoke (inv : CommandLine.Invocation) (m : Host.Machine) : Report :=
  let rules := Log.rules (m.valueOf "STEPLINE_LOG") inv.logLevel
  match Lookup.configPath inv.config m.configPlaces with
  | .error e => report rules m 1 (failure e.message)
  | .ok path =>
    match Config.load m.files path with
    | (.error _, events) =>
      report rules (m.noteAll events) 1 (failure ("Failed to load config from " ++ path.text))
    | (.ok config, events) =>
      let m := m.noteAll events
      match Host.runSession config (environment config m) inv.options m with
      | (.error e, m) => report rules m 1 (failure e.message)
      | (.ok none, m) => report rules m 1 []
      | (.ok (some t), m) => report rules (m.note (.exiting t)) t.exitCode []

/-- The words for an unreadable command line are left to its reader; `usage error` stands for them. -/
def run (args : List String) (m : Host.Machine) : Report :=
  match CommandLine.parse args with
  | .error _ =>
    { status := CommandLine.usageStatus, stderr := Utf8.encode "usage error" }
  | .ok inv => invoke inv m

end DebugSession.Program
