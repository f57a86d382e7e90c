import Parley.Json.Display
import Parley.Message
set_option autoImplicit false

/-! # The prompt of a conversation

A conversation is put to a model as a list of messages with blocks. What the user said stands
between tags. A message of the assistant becomes a text block, unless it has no text, and a block
for each tool call; the results that are there follow in a message of their own, directly
after. -/

namespace Parley.Prompt

/-- A block of text. -/
def textBlock (text : Json) : Json :=
  .object [("type", .string "text"), ("text", text)]

/-- A block that asks for a tool call. -/
def toolUseBlock (id name input : Json) : Json :=
  .object [("type", .string "tool_use"), ("id", id), ("name", name), ("input", input)]

/-- A block with the result of a tool call. -/
def toolResultBlock (id content : Json) (isError : Bool) : Json :=
  .object [("type", .string "tool_result"), ("tool_use_id", id), ("content", content),
    ("is_error", .bool isError)]

/-- A prompt message with the role and content given. -/
def entry (role : String) (content : Json) : Json :=
  .object [("role", .string role), ("content", content)]

/-- A prompt message for a list of blocks, and none for the empty list. -/
def entryOfBlocks (role : String) (blocks : List Json) : List Json :=
  if blocks.isEmpty then [] else [entry role (.array blocks)]

/-- What the user said, between tags. A content that counts as false is nothing said. -/
def userText (content : Json) : String :=
  "<user_message>\n" ++ (if content.truthy then content.display else "") ++ "\n</user_message>"

/-- The blocks of a message of the assistant. -/
def assistantBlocks (m : Message) : List Json :=
  (if m.content.truthy then [textBlock m.content] else [])
    ++ m.toolCalls.map fun call => toolUseBlock call.id call.name call.args

/-- The blocks of the results that are there. -/
def resultBlocks (calls : List ToolCall) : List Json :=
  (calls.filter fun call => decide (call.result ≠ .null)).map fun call =>
    toolResultBlock call.id call.result call.isError

/-- The prompt messages of one message. -/
def ofMessage (m : Message) : List Json :=
  if m.isUser then [entry "user" (.string (userText m.content))]
  else entryOfBlocks "assistant" (assistantBlocks m)
    ++ entryOfBlocks "user" (resultBlocks m.toolCalls)

/-- The prompt of a conversation. -/
def ofMessages (messages : List Message) : List Json :=
  messages.flatMap ofMessage

end Parley.Prompt
