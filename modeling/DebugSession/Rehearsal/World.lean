import DebugSession.Config
import DebugSession.Host.Basic
import DebugSession.Text.Quoted

/-!
A machine set up for a rehearsal: a working directory, a home and a directory of programs below one
root, and on request an interpreter that only pretends.
-/

namespace DebugSession.Rehearsal

open Host

/-- What the pretended interpreter does. With `-c` in front of a script it checks it: the check fails
with status 3 where the script has `SYNTAX_ERROR` in it and hangs where it has `HANG`. Without, it tells
the settings it was given, and fails where the script has `RAISE` in it. -/
def fakeInterpreter : String :=
  "#!/bin/sh\n" ++
  "if [ \"$1\" = \"-c\" ]; then\n" ++
  "  shift\n" ++
  "  if grep -q SYNTAX_ERROR \"$1\"; then\n" ++
  "    echo \"$(basename \"$1\"):1: syntax error, unexpected end-of-input\"\n" ++
  "    exit 3\n" ++
  "  fi\n" ++
  "  if grep -q HANG \"$1\"; then\n" ++
  "    exec sleep 30\n" ++
  "  fi\n" ++
  "  echo \"Syntax OK\"\n" ++
  "  exit 0\n" ++
  "fi\n" ++
  "script=\"$1\"\n" ++
  "shift\n" ++
  "echo \"run $(basename \"$script\") stop=$STEPLINE_STOP post_mortem=$STEPLINE_POST_MORTEM " ++
    "linetrace=$STEPLINE_LINETRACE args=$*\"\n" ++
  "if grep -q RAISE \"$script\"; then\n" ++
  "  echo \"$(basename \"$script\"):1:in '<main>': boom (RuntimeError)\" >&2\n" ++
  "  echo \"\tfrom $(basename \"$script\"):1\" >&2\n" ++
  "  exit 1\n" ++
  "fi\n" ++
  "exit 0\n"

/-- One step of setting up. -/
inductive Preparation where
  /-- A script below the working directory. -/
  | script (relative body : String)
  /-- A script in the directory of programs. -/
  | pathScript (name body : String)
  | rc (body : String)
  | homeRc (body : String)
  /-- The pretended interpreter, with more lines for its configuration file. -/
  | fake (extra : String)
  | variable (name : String) (value : Bytes)
  deriving DecidableEq, Repr

structure World where
  root : Path
  disk : Disk
  /-- Variables for the debugger, in the order they were asked for. -/
  overrides : List (String × Bytes) := []

namespace World

def cwd (w : World) : Path := w.root.join (.ofText "work")

def home (w : World) : Path := w.root.join (.ofText "home")

def binDir (w : World) : Path := w.root.join (.ofText "bin")

def configPath (w : World) : Path := w.home.join (.ofText "config.toml")

def interpreterPath (w : World) : Path := w.root.join (.ofText "fake-interpreter")

/-- The directories of a rehearsal on a disk. -/
def new (disk : Disk) (root : Path) : World :=
  let w : World := { root, disk }
  { w with disk := [w.home, w.binDir, w.cwd].foldl (fun d p ↦ d.write [] p .directory) disk }

/-- A file that is there already stays as executable as it was. -/
def writeFile (w : World) (p : Path) (body : String) : World :=
  let exec := match w.disk.find [] p with
    | .ok (_, .file _ exec) => exec
    | _ => false
  { w with disk := w.disk.write [] p (.file (Utf8.encode body) exec) }

/-- The configuration that names an interpreter. -/
def configText (interpreter extra : String) : String :=
  "interpreter = " ++ Text.Quoted.text interpreter ++ "\n" ++
  "syntax_check_args = [\"-c\"]\n" ++
  "rc_file = \".steplinerc\"\n" ++ extra

def withFake (w : World) (extra : String) : World :=
  let body := Utf8.encode fakeInterpreter
  let w := { w with disk := w.disk.write [] w.interpreterPath (.file body true) }
  w.writeFile w.configPath (configText w.interpreterPath.text extra)

def prepare (w : World) : Preparation → World
  | .script relative body => w.writeFile (w.cwd.join (.ofText relative)) body
  | .pathScript name body => w.writeFile (w.binDir.join (.ofText name)) body
  | .rc body => w.writeFile (w.cwd.join (.ofText ".steplinerc")) body
  | .homeRc body => w.writeFile (w.home.join (.ofText ".steplinerc")) body
  | .fake extra => w.withFake extra
  | .variable name value => { w with overrides := w.overrides ++ [(name, value)] }

/-- The program directory in front of an inherited search path. There is no way to write a directory
that has a colon in its name. -/
def searchPath? (binDir : Path) (inherited : Option Bytes) : Option Bytes :=
  if binDir.bytes.contains Lookup.colon then none
  else
    let dirs := binDir.bytes :: inherited.elim [] (Text.cutAt (· = Lookup.colon))
    some (dirs.intersperse [Lookup.colon]).flatten

/-- The machine on which the debugger is run. -/
def machine (w : World) (input : Bytes) : Machine :=
  let m : Machine := {
    disk := w.disk
    cwd := w.cwd.names
    input
    vars := [
      ("HOME", w.home.bytes),
      ("PATH", (searchPath? w.binDir (some Machine.systemPath)).getD Machine.systemPath),
      ("STEPLINE_CONFIG", w.configPath.bytes)] }
  w.overrides.foldl (fun m v ↦ m.setVariable v.1 v.2) m

/-- Everything below the root, each path seen from there. -/
def listing (w : World) : List (Path × Entry) :=
  let start := w.root.names
  (w.disk.listing start).map fun found ↦
    (⟨(List.intersperse [Path.slash] (found.1.drop start.length)).flatten⟩, found.2)

end World

end DebugSession.Rehearsal
