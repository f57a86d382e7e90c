import Parley.Message
import Parley.Fault
set_option autoImplicit false

/-! # Messages as JSON

The reader takes an object for each message and tool call, ignores fields it does not know, and
treats an absent, null or empty `toolCalls`, `args` or `isError` as none, no arguments and no error.
The printer leaves out an empty list of tool calls, a null result and an error flag that is not
set. -/

namespace Parley

/-- The fields of an object. -/
def Json.fieldsOrFault (value : Json) : Except Fault (List (String × Json)) :=
  match value.fields? with
  | some fields => .ok fields
  | none => .error .wrongKind

/-- A field that has to be there. -/
def Json.requiredField (name : String) (fields : List (String × Json)) : Except Fault Json :=
  match Ordered.find? name fields with
  | some value => .ok value
  | none => .error (.missingField name)

namespace ToolCall

/-- Read a tool call: `id` and `name` have to be there. -/
def ofJson (value : Json) : Except Fault ToolCall := do
  let fields ← value.fieldsOrFault
  let id ← Json.requiredField "id" fields
  let name ← Json.requiredField "name" fields
  let args := Json.fieldOrNull "args" fields
  return {
    id
    name
    args := if args.truthy then args else .object []
    result := Json.fieldOrNull "result" fields
    isError := (Json.fieldOrNull "isError" fields).truthy }

/-- Print a tool call. -/
def toJson (call : ToolCall) : Json :=
  let result := if call.result = .null then [] else [("result", call.result)]
  let isError := if call.isError then [("isError", .bool true)] else []
  .object ([("id", call.id), ("name", call.name), ("args", call.args)] ++ result ++ isError)

end ToolCall

namespace Message

/-- The items of a list of tool calls. Every value that counts as false is the empty list, and a
    text or an object that is not empty holds no tool calls. -/
def callItems (value : Json) : Except Fault (List Json) :=
  if value.truthy then
    match value.items? with
    | some items => .ok items
    | none => .error .wrongKind
  else .ok []

/-- Read a message: `role` has to be there. -/
def ofJson (value : Json) : Except Fault Message := do
  let fields ← value.fieldsOrFault
  let role ← Json.requiredField "role" fields
  let items ← callItems (Json.fieldOrNull "toolCalls" fields)
  let toolCalls ← items.mapM ToolCall.ofJson
  return { role, content := Json.fieldOrNull "content" fields, toolCalls }

/-- Print a message. -/
def toJson (m : Message) : Json :=
  let calls :=
    if m.toolCalls.isEmpty then [] else [("toolCalls", .array (m.toolCalls.map ToolCall.toJson))]
  .object ([("role", m.role), ("content", m.content)] ++ calls)

/-- Read a conversation, the messages of which are the items of a list. -/
def listOfJson (items : List Json) : Except Fault (List Message) :=
  items.mapM ofJson

/-- Print a conversation. -/
def listToJson (messages : List Message) : Json :=
  .array (messages.map toJson)

end Message

end Parley
