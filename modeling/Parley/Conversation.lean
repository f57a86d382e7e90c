import Parley.Usage
set_option autoImplicit false

/-! # State of a conversation

What is remembered about a conversation between its turns. The messages are not part of it: they
come with every turn. -/

namespace Parley

/-- The tokens of a model call. -/
structure TokenCount where
  input : Int
  output : Int
deriving DecidableEq

/-- What is remembered about a conversation. -/
structure Conversation where
  /-- The core of the system prompt. -/
  systemPrompt : String
  /-- The model to use, or an empty text for the client's model. -/
  model : String
  /-- The tokens of the latest model call. -/
  last : Option TokenCount
  usage : Usage
  /-- The number of turns in which compaction changed something. -/
  compactionCount : Int
deriving DecidableEq

namespace Conversation

/-- A conversation before its first turn. -/
def new (systemPrompt model : String) : Conversation :=
  ⟨systemPrompt, model, none, Usage.none, 0⟩

/-- The input tokens of the latest model call, none before the first one. -/
def lastInput (c : Conversation) : Int :=
  match c.last with
  | some count => count.input
  | none => 0

/-- Count a compaction, if it changed something. -/
def countCompaction (changed : Bool) (c : Conversation) : Conversation :=
  if changed then { c with compactionCount := c.compactionCount + 1 } else c

end Conversation

end Parley
