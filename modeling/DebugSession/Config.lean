import DebugSession.Files
import DebugSession.Log.Event
import DebugSession.Toml.Document

/-!
The configuration file. Every key is optional; keys of other names do not count.
-/

namespace DebugSession

namespace Config

def standardInterpreter : String := "ruby"

def standardSyntaxCheckArgs : List String := ["-c"]

def standardRcFile : String := ".steplinerc"

def standardConnectTimeout : UInt64 := 10

end Config

structure Config where
  /-- The program that both checks and runs scripts. -/
  interpreter : String := Config.standardInterpreter
  syntaxCheckArgs : List String := Config.standardSyntaxCheckArgs
  /-- Arguments in front of the script when it is run. -/
  runArgs : List String := []
  rcFile : String := Config.standardRcFile
  /-- Seconds to wait for a check. Without it the wait has no end. -/
  validationTimeout : Option UInt64 := none
  connectTimeout : UInt64 := Config.standardConnectTimeout
  deriving DecidableEq, Repr

/-- What a configuration text can have wrong. How a reader of documents words it is left to that reader. -/
inductive ConfigError where
  | malformed
  | misshapen (key : String)
  deriving DecidableEq, Repr

/-- Why a configuration file cannot be used. -/
inductive LoadError where
  | io (e : IoError)
  | config (e : ConfigError)
  deriving DecidableEq, Repr

namespace Toml.Value

def text? : Value → Option String
  | .text s => some s
  | _ => none

def texts? : Value → Option (List String)
  | .array items => items.mapM text?
  | _ => none

def count? : Value → Option UInt64
  | .integer (.ofNat n) => if n < UInt64.size then some (.ofNat n) else none
  | _ => none

end Toml.Value

namespace Config

/-- The value of a key, or `absent` when the table does not have it. -/
def field {α : Type} (t : Toml.Entries) (key : String) (shape : Toml.Value → Option α) (absent : α) :
    Except ConfigError α :=
  match t.get? key with
  | none => .ok absent
  | some v =>
    match shape v with
    | some a => .ok a
    | none => .error (.misshapen key)

def ofTable (t : Toml.Entries) : Except ConfigError Config := do
  let interpreter ← field t "interpreter" Toml.Value.text? standardInterpreter
  let syntaxCheckArgs ← field t "syntax_check_args" Toml.Value.texts? standardSyntaxCheckArgs
  let runArgs ← field t "run_args" Toml.Value.texts? []
  let rcFile ← field t "rc_file" Toml.Value.text? standardRcFile
  let validationTimeout ← field t "validation_timeout" (fun v ↦ v.count?.map some) none
  let connectTimeout ← field t "connect_timeout" Toml.Value.count? standardConnectTimeout
  return { interpreter, syntaxCheckArgs, runArgs, rcFile, validationTimeout, connectTimeout }

def ofText (s : String) : Except ConfigError Config :=
  match Toml.document? s with
  | none => .error .malformed
  | some t => ofTable t

/-- Without a file everything has its standard value. -/
def load (files : Files) (path : Path) : Except LoadError Config × List Event :=
  if !files.isPresent path then (.ok {}, [.noConfig path])
  else match files.readText path with
    | .error e => (.error (.io e), [])
    | .ok s =>
      match ofText s with
      | .error e => (.error (.config e), [])
      | .ok config => (.ok config, [.configLoaded path])

/-- How long a check may take, if there is a limit. -/
def checkLimit (c : Config) : Option Duration := c.validationTimeout.map .ofSeconds

def connectLimit (c : Config) : Duration := .ofSeconds c.connectTimeout

end Config

end DebugSession
