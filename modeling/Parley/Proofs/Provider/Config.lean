import Parley.Provider.Client
import Parley.Settings
set_option autoImplicit false

/-! # What a provider gets to know

A configuration would take from the environment whatever it is not given. It is given everything, a
null included, so nothing is taken (`providerConfig_eq`): all that the environment could do is to be
looked up, and what is given goes first (`Precedes`). What is given depends on the provider. The key
for Anthropic is given to Anthropic only, the key for a compatible server to a compatible server only,
and the endpoint to neither Anthropic nor Bedrock (`config_isolated`). -/

namespace Parley

open Settings

/-! ## Looking settings up -/

/-- What is given for a setting is what a look-up finds for it. -/
def Settings.Precedes (arguments : List (String × Json)) (given? : String → Option Json) : Prop :=
  ∀ setting value, Ordered.find? setting arguments = some value → given? setting = some value

/-- What is given goes before the environment and files. -/
theorem Settings.Sources.precedes (sources : Sources) :
    Precedes sources.arguments sources.given? := by
  intro setting value hgiven
  rw [Sources.given?, hgiven]

namespace Provider.Config

/-- A setting: what is found for it, read, or its default. -/
def part {α : Type} (given? : String → Option Json) (setting : String)
    (reader : Json → Except Defect α) (default : α) : Checked α :=
  match given? setting with
  | some value => Checked.ofReading setting (reader value)
  | none => .valid default

/-- Put a configuration together from what a look-up finds. -/
def ofLookup (given? : String → Option Json) : Except Fault Config :=
  let provider := Provider.name <$> part given? "provider" readProvider .anthropic
  let checked : Checked Config := Config.mk
    <$> provider
    <*> part given? "model" readText defaultModel
    <*> part given? "api_key" readText ""
    <*> part given? "base_url" readOptionalText none
    <*> part given? "aws_region" readOptionalText none
    <*> part given? "max_tokens" readInteger defaultMaxTokens
    <*> part given? "temperature" readFloat defaultTemperature
  checked.toExcept

/-- A configuration is read by looking its parts up in the arguments and the environment. -/
theorem read_eq_ofLookup (arguments : List (String × Json)) (environment : Variables) :
    Config.read arguments environment = ofLookup (Sources.given? { arguments, environment }) := rfl

theorem part_of_given {α : Type} {given? : String → Option Json} {setting : String} {value : Json}
    (h : given? setting = some value) (reader : Json → Except Defect α) (default : α) :
    part given? setting reader default = Checked.ofReading setting (reader value) := by
  rw [part, h]

end Provider.Config

/-! ## All of a configuration -/

namespace Settings

/-- The configuration of a provider, all of it from the settings. -/
def configOf (s : Settings) (provider : Provider) : Provider.Config where
  provider := provider.name
  model := s.defaultModel
  apiKey := s.apiKey (some provider)
  baseUrl := s.baseUrl (some provider)
  awsRegion := s.region (some provider)
  maxTokens := s.maxTokens
  temperature := s.temperature

/-- The configuration of the provider with a name, if there is one. -/
def configNamed (s : Settings) (name : String) : Except Fault Provider.Config :=
  match Provider.ofName? name with
  | some provider => .ok (s.configOf provider)
  | none => .error (.settings [⟨"provider", .unlistedChoice⟩])

theorem readOptionalText_ofText? (text : Option String) :
    readOptionalText (Json.ofText? text) = .ok text := by
  cases text <;> rfl

theorem ofLookup_configArguments (s : Settings) (name : String) {given? : String → Option Json}
    (h : Precedes (s.configArguments name) given?) :
    Provider.Config.ofLookup given? = s.configNamed name := by
  unfold Provider.Config.ofLookup configNamed
  rw [Provider.Config.part_of_given (h "provider" _ rfl),
    Provider.Config.part_of_given (h "model" _ rfl),
    Provider.Config.part_of_given (h "api_key" _ rfl),
    Provider.Config.part_of_given (h "base_url" _ rfl),
    Provider.Config.part_of_given (h "aws_region" _ rfl),
    Provider.Config.part_of_given (h "max_tokens" _ rfl),
    Provider.Config.part_of_given (h "temperature" _ rfl),
    readOptionalText_ofText?, readOptionalText_ofText?, readProvider]
  cases Provider.ofName? name <;> rfl

/-- The environment has no part in a configuration. -/
theorem providerConfig_eq (s : Settings) (requested : Option String) (environment : Variables) :
    s.providerConfig requested environment = s.configNamed (s.providerName requested) := by
  unfold providerConfig
  rw [Provider.Config.read_eq_ofLookup]
  exact s.ofLookup_configArguments _
    (Sources.precedes { arguments := s.configArguments (s.providerName requested), environment })

end Settings

/-! ## What is for whom -/

theorem Provider.ofName?_eq_some {name : String} {provider : Provider}
    (h : ofName? name = some provider) : provider.name = name := by
  simpa using List.find?_some h

namespace Settings

variable (s : Settings) {name : String}

/-- Settings that say the same for the provider of a name give it the same configuration. -/
theorem configNamed_congr {s' : Settings}
    (h : ∀ provider : Provider, provider.name = name → s'.configOf provider = s.configOf provider) :
    s'.configNamed name = s.configNamed name := by
  unfold configNamed
  cases hname : Provider.ofName? name with
  | none => rfl
  | some provider =>
      dsimp only
      rw [h provider (Provider.ofName?_eq_some hname)]

/-- The key for Anthropic is for no other provider. -/
theorem configNamed_anthropicApiKey (key : String) (h : name ≠ Provider.anthropic.name) :
    { s with anthropicApiKey := key }.configNamed name = s.configNamed name := by
  refine s.configNamed_congr fun provider hname => ?_
  cases provider with
  | anthropic => exact absurd hname.symm h
  | ollama => rfl
  | compatible => rfl
  | bedrock => rfl

/-- The key for a compatible server is for no other provider. -/
theorem configNamed_llmApiKey (key : String) (h : name ≠ Provider.compatible.name) :
    { s with llmApiKey := key }.configNamed name = s.configNamed name := by
  refine s.configNamed_congr fun provider hname => ?_
  cases provider with
  | anthropic => rfl
  | ollama => rfl
  | compatible => exact absurd hname.symm h
  | bedrock => rfl

theorem configNamed_anthropic :
    s.configNamed Provider.anthropic.name = .ok (s.configOf .anthropic) := rfl

/-- **A configuration keeps secrets and the environment out.** It is the same in any environment,
    whatever the provider, as long as what is given goes before what an environment says. The key for
    Anthropic makes no difference to any other provider, and the key for a compatible server none to
    any provider but that. The configuration for Anthropic is there, has no base address and does not
    depend on the endpoint, so neither does the client that is created from it. -/
theorem config_isolated (requested : Option String) :
    (∀ given?, Precedes (s.configArguments (s.providerName requested)) given? →
      ∀ environment, Provider.Config.ofLookup given? = s.providerConfig requested environment) ∧
    (∀ environment environment',
      s.providerConfig requested environment = s.providerConfig requested environment') ∧
    (s.providerName requested ≠ Provider.anthropic.name → ∀ key environment environment',
      { s with anthropicApiKey := key }.providerConfig requested environment'
        = s.providerConfig requested environment) ∧
    (s.providerName requested ≠ Provider.compatible.name → ∀ key environment environment',
      { s with llmApiKey := key }.providerConfig requested environment'
        = s.providerConfig requested environment) ∧
    (s.providerName requested = Provider.anthropic.name → ∀ environment,
      ∃ config, s.providerConfig requested environment = .ok config ∧
        config.provider = Provider.anthropic.name ∧ config.baseUrl = none ∧
        (∀ endpoint environment',
          { s with llmEndpoint := endpoint }.providerConfig requested environment' = .ok config) ∧
        ∀ environment', ∃ client, Provider.Client.ofConfig config environment' = .ok client ∧
          client.route = .direct ∧ client.baseUrl = none) := by
  refine ⟨?_, ?_, ?_, ?_, ?_⟩
  · intro given? hgiven environment
    rw [providerConfig_eq]
    exact s.ofLookup_configArguments _ hgiven
  · intro environment environment'
    rw [providerConfig_eq, providerConfig_eq]
  · intro hother key environment environment'
    rw [providerConfig_eq, providerConfig_eq]
    exact s.configNamed_anthropicApiKey key hother
  · intro hother key environment environment'
    rw [providerConfig_eq, providerConfig_eq]
    exact s.configNamed_llmApiKey key hother
  · intro hanthropic environment
    have hconfig : ∀ endpoint environment',
        { s with llmEndpoint := endpoint }.providerConfig requested environment'
          = .ok (s.configOf .anthropic) := by
      intro endpoint environment'
      have hname : { s with llmEndpoint := endpoint }.providerName requested
          = Provider.anthropic.name := hanthropic
      rw [providerConfig_eq, hname, configNamed_anthropic]
      rfl
    exact ⟨s.configOf .anthropic, hconfig s.llmEndpoint environment, rfl, rfl, hconfig,
      fun _ => ⟨Provider.Client.direct (s.configOf .anthropic), rfl, rfl, rfl⟩⟩

/-- Settings with all keys and an endpoint. -/
def keyed : Settings where
  appName := "a"
  debug := false
  logLevel := "INFO"
  defaultProvider := .anthropic
  defaultModel := "m"
  anthropicApiKey := "first"
  llmEndpoint := "http://h"
  llmApiKey := "second"
  awsRegion := "r"
  maxTokens := 1
  temperature := Binary64.zero
  systemPrompt := "s"
  maxToolRounds := 1
  compactionEnabled := true
  recentWindow := 1
  keptResults := 1
  modelCacheTtl := Binary64.zero

/-- An environment that has a value for every part of a configuration. -/
def crowded : Variables := [
  ("PROVIDER", "bedrock"), ("MODEL", "x"), ("API_KEY", "x"), ("Base_Url", "http://x"),
  ("aws_region", "x"), ("MAX_TOKENS", "no number"), ("TEMPERATURE", "no number")]

/-- Where the parts of a configuration for a compatible server are looked up there. -/
def crowdedSources : Sources where
  arguments := keyed.configArguments "openai-compatible"
  environment := crowded

theorem config_isolated_crowded :
    Precedes (keyed.configArguments "openai-compatible") crowdedSources.given? ∧
    Provider.Config.ofLookup crowdedSources.given?
      = keyed.providerConfig (some "openai-compatible") [] ∧
    keyed.providerName (some "bedrock") ≠ Provider.anthropic.name ∧
    { keyed with anthropicApiKey := "other" }.providerConfig (some "bedrock") crowded
      = keyed.providerConfig (some "bedrock") [] ∧
    keyed.providerName (some "unheard-of") ≠ Provider.compatible.name ∧
    { keyed with llmApiKey := "other" }.providerConfig (some "unheard-of") crowded
      = keyed.providerConfig (some "unheard-of") [] ∧
    keyed.providerName none = Provider.anthropic.name ∧
    ∃ config, keyed.providerConfig none crowded = .ok config ∧ config.baseUrl = none := by
  have hgiven := crowdedSources.precedes
  have hbedrock : keyed.providerName (some "bedrock") ≠ Provider.anthropic.name := by decide
  have hunheard : keyed.providerName (some "unheard-of") ≠ Provider.compatible.name := by decide
  have hdefault : keyed.providerName none = Provider.anthropic.name := by decide
  obtain ⟨config, hconfig, -, hbase, -⟩ :=
    (keyed.config_isolated none).2.2.2.2 hdefault crowded
  exact ⟨hgiven, (keyed.config_isolated (some "openai-compatible")).1 _ hgiven [], hbedrock,
    (keyed.config_isolated (some "bedrock")).2.2.1 hbedrock "other" [] crowded, hunheard,
    (keyed.config_isolated (some "unheard-of")).2.2.2.1 hunheard "other" [] crowded, hdefault,
    config, hconfig, hbase⟩

end Settings

end Parley
