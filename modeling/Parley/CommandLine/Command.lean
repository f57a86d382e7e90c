import Parley.CommandLine.Grammar
import Parley.Ordered
set_option autoImplicit false

/-! # Commands

There are three commands: compact a conversation file, show a model, and show the configuration. The
first argument that is no flag names the command. -/

namespace Parley.CommandLine

/-- A command with its arguments. -/
inductive Command
  | compact (file : String) (usage limit : Int) (window : Option Int)
  | model (name : String) (provider endpoint : Option String)
  | config (check : Bool)
deriving DecidableEq

/-- What the arguments ask for. -/
inductive Request
  | help
  | refused
  | run (command : Command)
deriving DecidableEq

/-! ## The flags of each command -/

/-- The flags of the command that compacts a file. -/
def compactFlags : List Flag :=
  [helpFlag, ⟨"--usage", .integer⟩, ⟨"--limit", .integer⟩,
    ⟨"--window", .integer⟩]

/-- The flags of the command that shows a model. -/
def modelFlags : List Flag :=
  [helpFlag, ⟨"--provider", .text⟩, ⟨"--endpoint", .text⟩]

/-- The flags of the command that shows the configuration. -/
def configFlags : List Flag :=
  [helpFlag, ⟨"--check", .switch⟩]

/-! ## From arguments to commands -/

/-- The value of a flag that was given last. -/
def Given.value? (name : String) (given : Given) : Option String :=
  Ordered.find? name given.values.reverse

/-- The integer value of a flag. -/
def Given.integer? (name : String) (given : Given) : Option Int :=
  (given.value? name).bind Number.integerOfText?

/-- The command that compacts a file, from what was given to it. -/
def compactOf (given : Given) : Option Command := do
  return .compact (← given.positional) (← given.integer? "--usage") (← given.integer? "--limit")
    (given.integer? "--window")

/-- The command that shows a model, from what was given to it. -/
def modelOf (given : Given) : Option Command := do
  return .model (← given.positional) (given.value? "--provider") (given.value? "--endpoint")

/-- The command that shows the configuration, from what was given to it. -/
def configOf (given : Given) : Option Command :=
  some (.config (given.switches.contains "--check"))

/-- A command from its arguments. `excess` says that there was one too many before it. -/
def requestOf (flags : List Flag) (wantsPositional : Bool) (command : Given → Option Command)
    (excess : Bool) (arguments : List String) : Request :=
  match tokens? flags arguments with
  | none => .refused
  | some tokens =>
      match read wantsPositional tokens { excess } with
      | .help => .help
      | .refused => .refused
      | .given given =>
          match command given with
          | some found => if given.excess then .refused else .run found
          | none => .refused

/-- The command with a name. -/
def requestNamed (name : String) (excess : Bool) (arguments : List String) : Request :=
  if name = "compact" then requestOf compactFlags true compactOf excess arguments
  else if name = "model" then requestOf modelFlags true modelOf excess arguments
  else if name = "config" then requestOf configFlags false configOf excess arguments
  else .refused

/-- What the arguments of the program ask for; nothing asks for help. -/
def request (excess : Bool) : List String → Request
  | [] => if excess then .refused else .help
  | text :: rest =>
      if text = "--" then .refused
      else match token? [helpFlag] text with
        | some (.argument name) => requestNamed name excess rest
        | some .unknownFlag => request true rest
        | some (.flag _) => .help
        | some (.helpLetter letters) =>
            match readHelpLetter letters with
            | .help => .help
            | _ => .refused
        | _ => .refused

end Parley.CommandLine
