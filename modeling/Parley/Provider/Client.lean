import Parley.Provider.Config
import Parley.Tool
set_option autoImplicit false

/-! # Clients of a provider

A client knows how to reach a provider and what to send. Its requests and the replies to them have
the same form for every provider. -/

namespace Parley.Provider

/-- How a client reaches its provider. -/
inductive Route
  /-- The public interface, or the one at the base address. -/
  | direct
  | bedrock (region : String)
deriving DecidableEq

/-- A client of a provider. -/
structure Client where
  route : Route
  apiKey : String
  model : String
  baseUrl : Option String
  maxTokens : Int
  temperature : Binary64
deriving DecidableEq

namespace Client

/-! ## Creation -/

/-- The region of a client that none is configured for. -/
def defaultRegion (environment : Settings.Variables) : String :=
  (Ordered.find? "AWS_REGION" environment).getD "us-east-1"

/-- A client that reaches its provider directly. -/
def direct (config : Config) : Client where
  route := .direct
  apiKey := config.apiKey
  model := config.model
  baseUrl := config.baseUrl
  maxTokens := config.maxTokens
  temperature := config.temperature

/-- A client that goes through Bedrock. Key and base address of the configuration are not used. -/
def throughBedrock (config : Config) (environment : Settings.Variables) : Client where
  route := .bedrock (config.awsRegion.getD (defaultRegion environment))
  apiKey := ""
  model := config.model
  baseUrl := none
  maxTokens := config.maxTokens
  temperature := config.temperature

/-- The client for a configuration. A provider with servers of its own needs an endpoint. -/
def ofConfig (config : Config) (environment : Settings.Variables) : Except Fault Client :=
  match Provider.ofName? config.provider with
  | some .anthropic => .ok (direct config)
  | some .bedrock => .ok (throughBedrock config environment)
  | some _ =>
      if (config.baseUrl.getD "").isEmpty then .error (.endpointRequired config.provider)
      else .ok (direct config)
  | none => .error (.unknownProvider config.provider)

/-! ## Requests -/

/-- What is asked of a model. -/
structure Call where
  messages : List Json
  tools : List Tool.Definition
  instructions : Option String
  model : Option String

/-- The definition of a tool in a request. -/
def toolJson (d : Tool.Definition) : Json :=
  .object [("name", .string d.name), ("description", .string d.description),
    ("input_schema", d.parameters)]

/-- The request for a call. A call without a model of its own is for the client's model; empty
    instructions and an empty list of tools are left out. -/
def request (client : Client) (call : Call) : List (String × Json) :=
  let named := call.model.getD ""
  let instructions := call.instructions.getD ""
  [("model", .string (if named.isEmpty then client.model else named)),
    ("max_tokens", .int client.maxTokens),
    ("messages", .array call.messages),
    ("temperature", .number (.float client.temperature))]
  ++ (if instructions.isEmpty then [] else [("system", .string instructions)])
  ++ (if call.tools.isEmpty then [] else [("tools", .array (call.tools.map toolJson))])

end Client

/-! ## Replies -/

/-- A tool call that a model asks for. -/
structure Requested where
  id : Json
  name : String
  arguments : Arguments
deriving DecidableEq

/-- The reply of a model. -/
structure Reply where
  content : String
  toolCalls : List Requested
  inputTokens : Int
  outputTokens : Int
deriving DecidableEq

/-- A block of a given type. -/
def isBlock (kind : String) (block : Json) : Bool :=
  decide (block.field? "type" = some (.string kind))

/-- The text of the text blocks of a reply. -/
def replyText (blocks : List Json) : String :=
  String.join ((blocks.filter (isBlock "text")).map fun block =>
    ((block.field? "text").bind Json.text?).getD "")

/-- The tool calls of a reply. Arguments that are no object are none. -/
def replyCalls (blocks : List Json) : List Requested :=
  (blocks.filter (isBlock "tool_use")).map fun block =>
    { id := (block.field? "id").getD .null
      name := ((block.field? "name").bind Json.text?).getD ""
      arguments := ((block.field? "input").bind Json.fields?).getD [] }

/-- The reply that some blocks make up. -/
def Reply.ofBlocks (blocks : List Json) (inputTokens outputTokens : Int) : Reply where
  content := replyText blocks
  toolCalls := replyCalls blocks
  inputTokens := inputTokens
  outputTokens := outputTokens

end Parley.Provider
