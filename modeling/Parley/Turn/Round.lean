import Parley.Prompt.Buffer
import Parley.Provider.Client
import Parley.Tool.Registry
set_option autoImplicit false

/-! # Rounds of a turn

In a round a model replies, and the tool calls of its reply are run, all at the same time. The turn
waits for all of them. The reply and the results go into the prompt as two messages: one of the
assistant with the calls, and one of the user with a result for each call, in the order of the
calls, whichever was done first. -/

namespace Parley.Turn

open Provider

variable {σ : Type}

/-- A tool call that was run, and what it brought back. -/
structure Done where
  call : Requested
  result : Tool.Result
deriving DecidableEq

/-- The work of a tool call. -/
def workOf (tools : Tool.Registry σ) (call : Requested) : Work σ Tool.Result :=
  tools.work call.name call.arguments

/-- Run the tool calls of a reply at the same time. -/
def runCalls (tools : Tool.Registry σ) (calls : List Requested) (world : Work.World σ) :
    List Done × Work.World σ :=
  let (results, world) := Work.gather (calls.map (workOf tools)) world
  (List.zipWith Done.mk calls results, world)

/-- A tool call that was run, as part of the outcome of a turn. -/
def Done.toToolCall (d : Done) : ToolCall where
  id := d.call.id
  name := .string d.call.name
  args := .object d.call.arguments
  result := .string d.result.content
  isError := !d.result.success

/-- The block for a tool call. -/
def Done.useBlock (d : Done) : Json :=
  Prompt.toolUseBlock d.call.id (.string d.call.name) (.object d.call.arguments)

/-- The block for the result of a tool call. -/
def Done.resultBlock (d : Done) : Json :=
  Prompt.toolResultBlock d.call.id (.string d.result.content) (!d.result.success)

/-- The message for a reply with tool calls. -/
def replyMessage (content : String) (done : List Done) : Json :=
  let text := if content.isEmpty then [] else [Prompt.textBlock (.string content)]
  Prompt.entry "assistant" (.array (text ++ done.map Done.useBlock))

/-- The message for the results of tool calls. -/
def resultMessage (done : List Done) : Json :=
  Prompt.entry "user" (.array (done.map Done.resultBlock))

/-- The two messages that a round adds to the prompt. -/
def roundMessages (content : String) (done : List Done) : List Json :=
  [replyMessage content done, resultMessage done]

end Parley.Turn
