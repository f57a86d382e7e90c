import Parley.Json
import Parley.Work
set_option autoImplicit false

/-! # Tools

A tool has a name, a description and parameters, which make up the definition that a model sees,
and a handler that runs when the model calls it. Handlers act on a world that is shared by all
tools, of any type, and may wait: what a handler does with some arguments is `Work`. It either
returns a result or raises an ordinary error with a text. Interruptions, which are no ordinary
errors and end the program or the turn, are not modelled. -/

namespace Parley

namespace Tool

/-- What a tool call brought back. -/
structure Result where
  success : Bool
  output : String := ""
  error : Option String := none
deriving DecidableEq

/-- The text that a model gets to see. -/
def Result.content (r : Result) : String :=
  if r.success then r.output else "Error: " ++ r.error.getD "None"

/-- A failure with a text. -/
def Result.failure (text : String) : Result :=
  { success := false, error := some text }

/-- What a handler brings back: its result, or a failure with the text of the error raised. -/
def Result.ofHandler : Except String Result → Result
  | .ok result => result
  | .error text => .failure text

/-- A parameter of a tool. -/
structure Parameter where
  name : String
  kind : String
  description : String
  required : Bool := true
  /-- The value of an argument that is left out; null for none. -/
  default : Json := .null
  /-- The values allowed, any value if there are none. -/
  choices : Option (List Json) := none
deriving DecidableEq

/-- What a model sees of a tool. -/
structure Definition where
  name : String
  description : String
  parameters : Json
deriving DecidableEq

/-! ## Schemas -/

/-- The values allowed. No list of them is as good as an empty one. -/
def Parameter.allowed (p : Parameter) : List Json :=
  p.choices.getD []

/-- The schema of one parameter. -/
def Parameter.schema (p : Parameter) : Json :=
  let choices := if p.allowed.isEmpty then [] else [("enum", .array p.allowed)]
  let default := if p.default = .null then [] else [("default", p.default)]
  .object ([("type", .string p.kind), ("description", .string p.description)] ++ choices ++ default)

/-- The schemas of the parameters by name. -/
def properties (parameters : List Parameter) : Ordered String Json :=
  Ordered.ofList (parameters.map fun p => (p.name, p.schema))

/-- The names of the parameters that have to be given. -/
def requiredNames (parameters : List Parameter) : List String :=
  (parameters.filter Parameter.required).map Parameter.name

/-- The schema of the arguments of a tool. -/
def schema (parameters : List Parameter) : Json :=
  .object [
    ("type", .string "object"),
    ("properties", .object (properties parameters)),
    ("required", .array ((requiredNames parameters).map Json.string))]

end Tool

/-- The arguments of a call by name. -/
abbrev Arguments := List (String × Json)

/-- A tool in a world of type `σ`. -/
structure Tool (σ : Type) where
  name : String
  description : String
  parameters : List Tool.Parameter
  /-- The work of the tool, which comes to a result or to the text of an ordinary error. -/
  handler : Arguments → Work σ (Except String Tool.Result)

namespace Tool

variable {σ : Type}

/-- What a model sees of a tool. -/
def definition (tool : Tool σ) : Definition :=
  ⟨tool.name, tool.description, schema tool.parameters⟩

/-- The argument name that stands for the tool itself. -/
def ownName : String := "self"

/-- Run a tool. Its own name among the arguments is refused, and the handler does not run. -/
def execute (tool : Tool σ) (arguments : Arguments) : Work σ (Except String Result) :=
  if (Ordered.find? ownName arguments).isSome then
    .done (.error ("Tool.execute() got multiple values for argument '" ++ ownName ++ "'"))
  else tool.handler arguments

end Tool

end Parley
