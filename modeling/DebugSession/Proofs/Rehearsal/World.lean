import DebugSession.Proofs.Config.Load
import DebugSession.Proofs.Host.Write
import DebugSession.Proofs.Path.Join
import DebugSession.Proofs.Text.Lines
import DebugSession.Proofs.Toml.Written
import DebugSession.Rehearsal.World

/-!
The configuration of a rehearsal. It is written with quoted text and read as a document, so it says what it
was to say just if every character of the root's path is written in the same way for both.
-/

namespace DebugSession.Rehearsal.World

open Toml Host Host.Disk

section Text

variable {interpreter extra : String} {t : Entries} {d : Draft} {n m : Nat}

end Text

section Disk

variable {w : World} {extra : String} {place : Place}

/-- A world below an absolute root, on a disk that takes the files of a pretended interpreter. -/
structure Ready (w : World) : Prop where
  absolute : w.root.isAbsolute
  interpreter : ∃ place, w.disk.Opens w.interpreterPath place
  config : ∃ place, w.disk.Opens w.configPath place

end Disk

section Agreement

variable {w : World} {root extra : String} {t : Entries}

end Agreement

end DebugSession.Rehearsal.World
