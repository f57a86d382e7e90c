import Parley.CommandLine.Command
import Parley.Json.Printer
import Parley.Json.Reader
import Parley.Message.Wire
import Parley.Model.Resolver
import Parley.Pipeline
import Parley.Price
import Parley.Settings
import Parley.Settings.File
set_option autoImplicit false

/-! # The command line

The program runs one command in a place that has an environment, files and a network, prints a text
and ends with an exit code. Settings are read before any command runs, also by commands that make no
use of them. A fault ends the program and leaves what was printed before it. -/

namespace Parley.CommandLine

/-- Where the program runs. -/
structure Place where
  environment : Settings.Variables
  /-- The files by name. -/
  files : List (String × String)
  network : Http.Network

/-- What came of a run. -/
structure Run where
  exit : Nat
  output : String
  fault : Option Fault
  network : Http.Network

/-- A run that printed a text. -/
def Place.printed (place : Place) (exit : Nat) (output : String) : Run :=
  ⟨exit, output, none, place.network⟩

/-- A run that a fault ended. -/
def Place.failed (place : Place) (fault : Fault) : Run :=
  ⟨0, "", some fault, place.network⟩

/-! ## Files -/

/-- The parts of a path that count: neither empty ones nor those that stand for the place itself. -/
def pathParts (path : String) : List String :=
  (path.splitOn "/").filter fun part => decide (part ≠ "" ∧ part ≠ ".")

/-- The text of a file. -/
def Place.read (place : Place) (path : String) : Except Fault String :=
  let parts := pathParts path
  match place.files.find? fun file => decide (pathParts file.1 = parts) with
  | some file => if path.startsWith "/" then .error .fileMissing else .ok file.2
  | none =>
      let holdsFiles := place.files.any fun file => parts.isPrefixOf (pathParts file.1)
      .error (if parts.isEmpty || holdsFiles then .isDirectory else .fileMissing)

/-- The variables of the settings file, if there is one. -/
def Place.fileVariables (place : Place) : Settings.Variables :=
  match place.read ".env" with
  | .ok text => Settings.File.assignments place.environment text
  | .error _ => []

/-- The settings. -/
def Place.settings (place : Place) : Except Fault Settings :=
  Settings.read { environment := place.environment, file := place.fileVariables }

/-- The levels that a log can have, in small letters. -/
def logLevels : List String :=
  ["critical", "fatal", "error", "warn", "warning", "info", "debug", "notset"]

/-- Check the log level, which may be in capitals. -/
def checkLogLevel (level : String) : Except Fault Unit :=
  let name := Settings.lowerCase level
  if logLevels.contains name then .ok () else .error (.unknownLevel name)

/-! ## Compacting a file -/

/-- The items of a document that holds messages. Empty texts and objects hold none. -/
def documentItems : Json → Except Fault (List Json)
  | .array items => .ok items
  | .string text => if text.isEmpty then .ok [] else .error .wrongKind
  | .object fields => if fields.isEmpty then .ok [] else .error .wrongKind
  | _ => .error .wrongKind

/-- The conversation in a file. -/
def Place.conversation (place : Place) (file : String) : Except Fault (List Message) := do
  let text ← place.read file
  match Json.read? text with
  | none => .error .badDocument
  | some document => Message.listOfJson (← documentItems document)

/-- What the compaction of a file prints. -/
def Place.compactOutput (place : Place) (settings : Settings) (file : String) (usage limit : Int)
    (window : Option Int) : Except Fault String := do
  let messages ← place.conversation file
  let done ← Pipeline.standard.run messages ⟨usage, limit, window.getD settings.recentWindow⟩
  let document : Json := .object [
    ("messages", Message.listToJson done.messages), ("report", done.report.toJson)]
  return document.indented ++ "\n"

/-! ## Showing a model -/

/-- What is printed about a model. -/
def modelOutput (m : Model) (price : Price) : String :=
  String.join [
    "\n=== ", m.name, " ===\n\n",
    "  Family: ", m.family.display, "\n",
    "  Context Window: ", grouped m.contextWindow, " tokens\n",
    "  Input: $", price.input.text FloatLayout.display, "/1M tokens\n",
    "  Output: $", price.output.text FloatLayout.display, "/1M tokens\n"]

/-- Show a model. -/
def Place.runModel (place : Place) (name : String) (provider endpoint : Option String) : Run :=
  let directory : Model.Directory :=
    ⟨Cache.empty (.float Settings.defaultModelCacheTtl), .int 0, place.network⟩
  let (found, directory) := Model.resolve name provider endpoint directory
  let place := { place with network := directory.network }
  match found with
  | .error fault => place.failed fault
  | .ok m => place.printed 0 (modelOutput m (Price.ofModel name))

/-! ## Showing the configuration -/

/-- A secret, of which a long one shows its first and last four characters. -/
def masked (secret : String) : String :=
  let cs := secret.toList
  if cs.isEmpty then "(not set)"
  else if 10 < cs.length then
    String.ofList (cs.take 4) ++ "..." ++ String.ofList (cs.drop (cs.length - 4))
  else "****"

/-- What is printed about the configuration. -/
def configOutput (s : Settings) : String :=
  String.join [
    "\n=== Nexus Gateway Configuration ===\n\n",
    "LLM:\n",
    "  Provider: ", s.defaultProvider.name, "\n",
    "  Model: ", s.defaultModel, "\n",
    "  Endpoint: ", s.llmEndpoint, "\n",
    "  Anthropic Key: ", masked s.anthropicApiKey, "\n",
    "  Max Tool Rounds: ", decimalText s.maxToolRounds, "\n",
    "\nCompaction:\n",
    "  Enabled: ", (Json.bool s.compactionEnabled).display, "\n",
    "  Recent Window: ", decimalText s.recentWindow, " user turns\n",
    "  Kept Results Between Rounds: ", decimalText s.keptResults, "\n"]

/-- What is wrong with the configuration. -/
def configErrors (s : Settings) : List String :=
  (if s.defaultProvider = .anthropic ∧ s.anthropicApiKey.isEmpty then
    ["ANTHROPIC_API_KEY is required for the anthropic provider"] else [])
  ++ (if s.maxToolRounds < 1 then ["MAX_TOOL_ROUNDS must be at least 1"] else [])

/-- Show the configuration, and check it if asked to. -/
def Place.runConfig (place : Place) (s : Settings) (check : Bool) : Run :=
  if check then
    let heading := configOutput s ++ "\n=== Configuration Check ===\n\n"
    let errors := configErrors s
    if errors.isEmpty then place.printed 0 (heading ++ "Configuration looks good!\n")
    else place.printed 1 (heading ++ "Errors:\n"
      ++ String.join (errors.map fun text => "   - " ++ text ++ "\n"))
  else place.printed 0 (configOutput s)

/-! ## The program -/

/-- The help text. -/
def helpText : String := "usage"

/-- Run a command. -/
def Place.runCommand (place : Place) (s : Settings) : Command → Run
  | .compact file usage limit window =>
      match place.compactOutput s file usage limit window with
      | .ok output => place.printed 0 output
      | .error fault => place.failed fault
  | .model name provider endpoint => place.runModel name provider endpoint
  | .config check => place.runConfig s check

/-- The settings, with a log level that is known. -/
def Place.checkedSettings (place : Place) : Except Fault Settings := do
  let s ← place.settings
  checkLogLevel s.logLevel
  return s

/-- Run the program. -/
def Place.run (place : Place) (arguments : List String) : Run :=
  match request false arguments with
  | .help => place.printed 0 helpText
  | .refused => place.printed 2 ""
  | .run command =>
      match place.checkedSettings with
      | .error fault => place.failed fault
      | .ok s => place.runCommand s command

end Parley.CommandLine
