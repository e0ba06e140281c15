import DebugSession.CommandLine.Options

/-!
The help text. Its columns are as wide as their longest entry.
-/

namespace DebugSession.CommandLine

def padTo (width : Nat) (s : String) : String :=
  s ++ String.ofList (List.replicate (width - s.length) ' ')

/-- Two columns, the first indented by two and as wide as its longest entry. -/
def table (rows : List (String × String)) : String :=
  let width := (rows.map (·.1.length)).foldl max 0
  String.join (rows.map fun row ↦ "  " ++ padTo width row.1 ++ "  " ++ row.2 ++ "\n")

def OptionName.usage (o : OptionName) : String :=
  (match o.short with
    | some c => "-" ++ String.singleton c ++ ", "
    | none => "    ") ++ "--" ++ o.long ++ o.values

def helpText : String :=
  "Debug a script: check it, run it under trace, inspect it, repeat\n\n" ++
  "Usage: stepline [OPTIONS] <SCRIPT> [SCRIPT_ARGS]...\n\n" ++
  "Arguments:\n" ++
  table [("[SCRIPT]", "Script to debug; looked up on PATH when not found as given"),
    ("[SCRIPT_ARGS]...", "Arguments handed to the script")] ++
  "\nOptions:\n" ++
  table (optionNames.map fun o ↦ (o.usage, o.about))

end DebugSession.CommandLine
