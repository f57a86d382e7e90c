import Parley.Json
set_option autoImplicit false

/-! # Conversation messages

A message is one turn of the user or of the assistant. An assistant's message carries the tool
calls that it asked for, each with its result once there is one. Contents, identifiers and results
are arbitrary JSON values: nothing in a conversation is checked on the way in, and what is not
shortened is handed on as it came. -/

namespace Parley

/-- A tool call, and its result unless that is null. -/
structure ToolCall where
  id : Json
  name : Json
  args : Json
  result : Json
  isError : Bool
deriving DecidableEq

/-- A message of a conversation. -/
structure Message where
  role : Json
  content : Json
  toolCalls : List ToolCall
deriving DecidableEq

namespace Message

/-- A message of the user. -/
def isUser (m : Message) : Bool :=
  decide (m.role = .string "user")

/-- A message of the assistant. -/
def isAssistant (m : Message) : Bool :=
  decide (m.role = .string "assistant")

end Message

end Parley
