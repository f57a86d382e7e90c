import Parley.Conversation
import Parley.Model.Resolver
import Parley.Pipeline
import Parley.Settings
import Parley.Tool.Registry
set_option autoImplicit false

/-! # Agents

An agent answers in conversations. It is set up once, with settings, a model, tools and a compaction
pipeline. Its state is what changes afterwards: what is known about models, what is remembered
about each conversation, which conversations have a turn in progress, and the world that its tools
act on. -/

namespace Parley

/-- An agent whose tools act on a world of type `σ`. -/
structure Agent (σ : Type) where
  settings : Settings
  /-- The model of the client, for conversations without a model of their own. -/
  model : String
  provider : String
  endpoint : Option String
  pipeline : Pipeline
  tools : Tool.Registry σ

namespace Agent

/-- What changes while an agent is at work. -/
structure State (σ : Type) where
  directory : Model.Directory
  conversations : Ordered String Conversation
  /-- The conversations that have a turn in progress. -/
  active : List String
  world : Work.World σ

variable {σ : Type}

/-- An agent with settings; it reaches models by the default provider of the settings. -/
def ofSettings (settings : Settings) (environment : Settings.Variables) (model : String)
    (pipeline : Pipeline) (tools : Tool.Registry σ) : Except Fault (Agent σ) := do
  let config ← settings.providerConfig none environment
  return {
    settings
    model
    provider := config.provider
    endpoint := config.baseUrl
    pipeline
    tools }

/-- The state before the first turn, in a world where nothing goes on but the work of the tools. -/
def initial (agent : Agent σ) (network : Http.Network) (world : σ) : State σ where
  directory := ⟨Cache.empty (.float agent.settings.modelCacheTtl), .int 0, network⟩
  conversations := []
  active := []
  world := ⟨world, []⟩

/-- What is remembered about a conversation, be it new. -/
def conversation (agent : Agent σ) (id : String) (s : State σ) : Conversation :=
  (Ordered.find? id s.conversations).getD
    (Conversation.new agent.settings.systemPrompt agent.model)

/-- Remember something about a conversation. -/
def State.remember (id : String) (c : Conversation) (s : State σ) : State σ :=
  { s with conversations := Ordered.insert id c s.conversations }

/-- Compact the messages of a conversation, unless compaction is switched off. -/
def compact (agent : Agent σ) (messages : List Message) (usage limit : Int) :
    Except Fault Compaction :=
  if agent.settings.compactionEnabled then
    agent.pipeline.run messages ⟨usage, limit, agent.settings.recentWindow⟩
  else .ok ⟨messages, Report.empty⟩

/-- Compact the messages of a conversation and count it, if something changed. -/
def compactIn (agent : Agent σ) (id : String) (messages : List Message) (usage limit : Int)
    (s : State σ) : Except Fault Compaction × State σ :=
  match agent.compact messages usage limit with
  | .error fault => (.error fault, s)
  | .ok done =>
      let changed := !done.report.entries.isEmpty
      (.ok done, s.remember id ((agent.conversation id s).countCompaction changed))

end Agent

end Parley
