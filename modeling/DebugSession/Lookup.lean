import DebugSession.Fault
import DebugSession.Path.Basic
import DebugSession.Text.Blank

/-!
Where scripts and the configuration file are looked for.
-/

namespace DebugSession.Lookup

/-- A name with a slash says where the file is. -/
def hasSeparator (name : String) : Bool := name.toList.any (· = '/')

def colon : UInt8 := 0x3A

/-- The directories of a search path. An empty entry names none. -/
def directories (searchPath : Bytes) : List Path :=
  ((Text.cutAt (· = colon) searchPath).filter (· ≠ [])).map Path.mk

/-- The first directory that holds `name` decides; `name` itself when none does. -/
def whence (isPresent : Path → Bool) (searchPath : Option Bytes) (name : String) : Path :=
  if hasSeparator name then .ofText name
  else
    let candidates := (searchPath.elim [] directories).map (·.join (.ofText name))
    (candidates.find? isPresent).getD (.ofText name)

/-- The name as a path if something is there, else by the search path. -/
def resolve (isPresent : Path → Bool) (searchPath : Option Bytes) (name : String) : Path :=
  if isPresent (.ofText name) then .ofText name else whence isPresent searchPath name

/-- A text that begins with `~/` is read against `home`, if there is one. -/
def expandTilde (home : Option Path) (text : String) : Path :=
  match Text.after? "~/" text, home with
  | some rest, some home => home.join (.ofText rest)
  | _, _ => .ofText text

/-- What decides about the configuration file besides the command line. -/
structure ConfigPlaces where
  home : Option Path
  /-- The variable that names the file. It counts only if it is UTF-8. -/
  named : Option Bytes := none
  /-- Where the system keeps what its user configures. -/
  configDir : Option Path := none

def noConfigPath : SetupError :=
  .config "Could not determine config path: no HOME directory or system config directory found"

/-- The file that is named, on the command line before the variable; else the one of the system's
configuration directory, and on a system without such a directory the one of the home directory. -/
def configPath (explicit : Option String) (places : ConfigPlaces) : Except SetupError Path :=
  match explicit.or (places.named.bind Utf8.decode?) with
  | some text => .ok (expandTilde places.home text)
  | none =>
    match places.configDir, places.home with
    | some dir, _ => .ok ((dir.join (.ofText "stepline")).join (.ofText "config.toml"))
    | none, some home => .ok ((home.join (.ofText ".stepline")).join (.ofText "config.toml"))
    | none, none => .error noConfigPath

end DebugSession.Lookup
