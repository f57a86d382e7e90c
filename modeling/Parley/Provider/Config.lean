import Parley.Provider
import Parley.Settings.Source
import Parley.Settings.Value
set_option autoImplicit false

/-! # Configuration of a provider

Everything that is needed to reach a model. Each part is given or else taken from an environment;
the name of the provider is checked when a configuration is read. -/

namespace Parley.Provider

/-- The configuration of a provider. -/
structure Config where
  provider : String
  model : String
  apiKey : String
  baseUrl : Option String
  awsRegion : Option String
  maxTokens : Int
  temperature : Binary64
deriving DecidableEq

/-- The model that is used unless another one is configured. -/
def defaultModel : String := "claude-sonnet-4-20250514"

/-- The most tokens of a reply, unless configured otherwise. -/
def defaultMaxTokens : Int := 4096

/-- The temperature of replies, unless configured otherwise: seven tenths. -/
def defaultTemperature : Binary64 := Binary64.ofDecimal false 7 (-1)

/-- Put a configuration together from arguments and the environment. -/
def Config.read (arguments : List (String × Json)) (environment : Settings.Variables) :
    Except Fault Config :=
  let sources : Settings.Sources := { arguments, environment }
  let provider := Provider.name <$> sources.read "provider" Settings.readProvider .anthropic
  let checked : Checked Config := Config.mk
    <$> provider
    <*> sources.read "model" Settings.readText defaultModel
    <*> sources.read "api_key" Settings.readText ""
    <*> sources.read "base_url" Settings.readOptionalText none
    <*> sources.read "aws_region" Settings.readOptionalText none
    <*> sources.read "max_tokens" Settings.readInteger defaultMaxTokens
    <*> sources.read "temperature" Settings.readFloat defaultTemperature
  checked.toExcept

end Parley.Provider
