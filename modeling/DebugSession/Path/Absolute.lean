import DebugSession.Path.Basic
import DebugSession.Fault

/-!
Absolute paths by text alone: links are not followed and the path need not exist.
-/

namespace DebugSession.Path

/-- Exactly two slashes at the front, which mean a root of their own. -/
def hasDoubleRoot (p : Path) : Bool :=
  match p.bytes with
  | a :: b :: rest => a = slash && b = slash && rest.head? ≠ some slash
  | _ => false

def rootOf (p : Path) : Path :=
  if p.hasDoubleRoot then ⟨[slash, slash]⟩ else ⟨[slash]⟩

/-- The steps of `p` after its root or after the current directory, each joined by one slash; a slash
at the end of `p` stays. -/
def absolute (cwd : Except IoError Path) (p : Path) : Except IoError Path :=
  if p.bytes = [] then .error .emptyPath
  else
    let walk (base : Path) : Path :=
      let whole := p.steps.foldl (fun q step ↦ q.join ⟨step⟩) base
      if p.endsInSlash then whole.join ⟨[]⟩ else whole
    if p.isAbsolute then .ok (walk p.rootOf) else cwd.map walk

end DebugSession.Path
