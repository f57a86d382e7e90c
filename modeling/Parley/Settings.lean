import Parley.Provider.Config
set_option autoImplicit false

/-! # Settings

The settings of the whole library. `Settings.read` puts them together from their sources and checks
them; `Settings.providerConfig` gives what is needed to reach the model of a provider. -/

namespace Parley

/-- All settings. -/
structure Settings where
  appName : String
  debug : Bool
  logLevel : String
  defaultProvider : Provider
  defaultModel : String
  anthropicApiKey : String
  llmEndpoint : String
  llmApiKey : String
  awsRegion : String
  maxTokens : Int
  temperature : Binary64
  systemPrompt : String
  /-- The most rounds of a turn. -/
  maxToolRounds : Int
  compactionEnabled : Bool
  /-- How many user messages are protected from compaction. -/
  recentWindow : Int
  /-- How many tool results are kept between the rounds of a turn. -/
  keptResults : Int
  /-- How long the reply of a server about a model is kept, in seconds. -/
  modelCacheTtl : Binary64
deriving DecidableEq

namespace Settings

/-- The core of the system prompt, unless configured otherwise. -/
def defaultSystemPrompt : String :=
  "You are a helpful assistant with access to tools from the Nexus platform."

/-- One hour, in seconds. -/
def defaultModelCacheTtl : Binary64 := Binary64.ofDecimal false 3600 0

/-- Put the settings together and check them. -/
def read (sources : Sources) : Except Fault Settings :=
  let checked : Checked Settings := Settings.mk
    <$> sources.read "app_name" readText "Nexus-Gateway"
    <*> sources.read "debug" readTruth false
    <*> sources.read "log_level" readText "INFO"
    <*> sources.read "default_provider" readProvider .anthropic
    <*> sources.read "default_model" readText Provider.defaultModel
    <*> sources.read "anthropic_api_key" readText ""
    <*> sources.read "llm_endpoint" readText "http://localhost:11434"
    <*> sources.read "llm_api_key" readText ""
    <*> sources.read "aws_region" readText "us-east-1"
    <*> sources.read "max_tokens" readInteger Provider.defaultMaxTokens
    <*> sources.read "temperature" readFloat Provider.defaultTemperature
    <*> sources.read "system_prompt" readText defaultSystemPrompt
    <*> sources.read "max_tool_rounds" readInteger 10
    <*> sources.read "compaction_enabled" readTruth true
    <*> sources.check "compaction_recent_window" (checkWindow "compaction_recent_window") 4
    <*> sources.read "inter_round_keep_results" readInteger 6
    <*> sources.read "model_cache_ttl_seconds" readFloat defaultModelCacheTtl
  checked.toExcept

/-! ## Providers -/

/-- The key for a provider. A server of one's own takes any key, and a compatible server gets a
    placeholder where none is set. -/
def apiKey (s : Settings) : Option Provider → String
  | some .anthropic => s.anthropicApiKey
  | some .ollama => "ollama"
  | some .compatible => if s.llmApiKey.isEmpty then "no-key" else s.llmApiKey
  | some .bedrock => ""
  | none => ""

/-- The endpoint for a provider that has one. -/
def baseUrl (s : Settings) : Option Provider → Option String
  | some .ollama => some s.llmEndpoint
  | some .compatible => some s.llmEndpoint
  | _ => none

/-- The region for a provider that has one. -/
def region (s : Settings) : Option Provider → Option String
  | some .bedrock => some s.awsRegion
  | _ => none

/-- The provider that a name stands for: an empty one and none at all stand for the default. -/
def providerName (s : Settings) (requested : Option String) : String :=
  let text := requested.getD ""
  if text.isEmpty then s.defaultProvider.name else text

/-- All parts of the configuration of a provider. -/
def configArguments (s : Settings) (name : String) : List (String × Json) :=
  let provider := Provider.ofName? name
  [("provider", .string name),
    ("model", .string s.defaultModel),
    ("api_key", .string (s.apiKey provider)),
    ("base_url", Json.ofText? (s.baseUrl provider)),
    ("aws_region", Json.ofText? (s.region provider)),
    ("max_tokens", .int s.maxTokens),
    ("temperature", .number (.float s.temperature))]

/-- What is needed to reach the models of a provider. Every part is given, so that nothing is taken
    from the environment. -/
def providerConfig (s : Settings) (requested : Option String) (environment : Variables) :
    Except Fault Provider.Config :=
  Provider.Config.read (s.configArguments (s.providerName requested)) environment

end Settings

end Parley
