set_option autoImplicit false

/-! # Providers of models

A model is reached directly, through a server of one's own, through any server with a compatible
interface, or through Bedrock. -/

namespace Parley

/-- A way to reach a model. -/
inductive Provider
  | anthropic
  | ollama
  | compatible
  | bedrock
deriving DecidableEq

namespace Provider

/-- The name of a provider. -/
def name : Provider → String
  | .anthropic => "anthropic"
  | .ollama => "ollama"
  | .compatible => "openai-compatible"
  | .bedrock => "bedrock"

/-- The provider with a name, which has to be spelled exactly. -/
def ofName? (text : String) : Option Provider :=
  [anthropic, ollama, compatible, bedrock].find? fun provider => decide (provider.name = text)

end Provider

end Parley
