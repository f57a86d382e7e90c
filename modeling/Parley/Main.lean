import Parley.CommandLine
set_option autoImplicit false

/-! # The program

Reads the environment, the settings file and the conversation file, runs the command line on them,
and prints what it says. Servers are out of reach, so every request fails. -/

namespace Parley.CommandLine

/-- The names of the settings that come from the environment. -/
def settingNames : List String :=
  ["app_name", "debug", "log_level", "default_provider", "default_model", "anthropic_api_key",
    "llm_endpoint", "llm_api_key", "aws_region", "max_tokens", "temperature", "system_prompt",
    "max_tool_rounds", "compaction_enabled", "compaction_recent_window",
    "inter_round_keep_results", "model_cache_ttl_seconds"]

/-- The variables of the environment with the names given. -/
def environmentOf : List String → IO Settings.Variables
  | [] => return []
  | name :: rest => do
      let others ← environmentOf rest
      match ← IO.getEnv name with
      | some value => return (name, value) :: others
      | none => return others

/-- A file that can be read, with its text. -/
def fileAt (path : String) : IO (List (String × String)) :=
  try
    return [(path, ← IO.FS.readFile path)]
  catch _ =>
    return []

/-- The files that the arguments ask for. -/
def filesFor (arguments : List String) : List String :=
  match request false arguments with
  | .run (.compact file _ _ _) => [".env", file]
  | _ => [".env"]

/-- The place that the program finds itself in. -/
def currentPlace (arguments : List String) : IO Place := do
  let environment ← environmentOf (settingNames ++ settingNames.map String.toUpper)
  let files ← (filesFor arguments).mapM fileAt
  return ⟨environment, files.flatten, Http.Network.ofReplies []⟩

end Parley.CommandLine

/-- Run the command that the arguments ask for. -/
def main (arguments : List String) : IO UInt32 := do
  let run := (← Parley.CommandLine.currentPlace arguments).run arguments
  IO.print run.output
  match run.fault with
  | some fault =>
      IO.eprintln (fault.message?.getD "The command failed.")
      return 1
  | none => return run.exit.toUInt32
