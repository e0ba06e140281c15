import DebugSession.Program

/-!
The command line. The machine of a run is a copy of what the run can see: the files of the working
directory and the ones that arguments and variables name, and the whole standard input.
-/

open DebugSession

namespace DebugSession.Main

partial def readAll (stream : IO.FS.Stream) (read : ByteArray) : IO ByteArray := do
  let piece ← stream.read 65536
  if piece.isEmpty then return read else readAll stream (read ++ piece)

/-- Copies a file onto the disk, if it is one. A file that names an interpreter can be started. -/
def copyFile (m : Host.Machine) (name : String) : IO Host.Machine := do
  try
    let content := (← IO.FS.readBinFile name).toList
    let entry := Host.Entry.file content (Shell.shebang? content).isSome
    return { m with disk := m.disk.write m.cwd (.ofText name) entry }
  catch _ => return m

def variableNames : List String :=
  ["HOME", "PATH", "STEPLINE_CONFIG", "STEPLINE_LOG", "XDG_CONFIG_HOME"]

def machine (args : List String) : IO Host.Machine := do
  let dir ← IO.currentDir
  let mut m : Host.Machine := {
    disk := Host.Machine.systemDisk
    cwd := Host.Machine.placeOf dir.toString
    input := (← readAll (← IO.getStdin) .empty).toList }
  m := { m with disk := m.disk.write [] (.ofText dir.toString) .directory }
  for name in variableNames do
    match ← IO.getEnv name with
    | some value => m := m.setVariable name (Utf8.encode value)
    | none => pure ()
  for entry in ← dir.readDir do
    m ← copyFile m entry.path.toString
  let config := match CommandLine.parse args with
    | .ok inv => inv.config
    | .error _ => none
  let mut loaded : Config := {}
  if let .ok path := Lookup.configPath config m.configPlaces then
    m ← copyFile m path.text
    loaded := (Config.load m.files path).1.toOption.getD {}
  m ← copyFile m (m.home.join (.ofText loaded.rcFile)).text
  for name in loaded.interpreter :: args do
    m ← copyFile m name
    for path in m.site.programPaths name do
      m ← copyFile m path.text
  return m

end DebugSession.Main

def main (args : List String) : IO UInt32 := do
  let report := Program.run args (← Main.machine args)
  (← IO.getStdout).write (ByteArray.mk report.stdout.toArray)
  let stderr ← IO.getStderr
  for line in report.log do
    stderr.putStrLn line
  stderr.write (ByteArray.mk report.stderr.toArray)
  return UInt32.ofNat (report.status % 256).toNat
