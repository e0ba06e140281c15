import DebugSession.Fault
import DebugSession.Path.Basic

/-!
What a session may ask of the file system.
-/

namespace DebugSession

structure Files where
  currentDir : Except IoError Path
  /-- Links are followed. -/
  isPresent : Path → Bool
  readText : Path → Except IoError String
  /-- The same place without links, `.` and `..`. Everything on the way has to exist. -/
  canonical? : Path → Option Path

end DebugSession
