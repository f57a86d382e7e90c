import Parley.Message
import Parley.Fault
set_option autoImplicit false

/-! # Token budgets

Four characters count as one token. A quotient of integers is a float: the exact quotient, rounded
once. Token counts that are derived from one are rounded up to an integer. -/

namespace Parley

/-- The quotient of two integers as a float. -/
def quotient (a b : Int) : Except Fault Binary64 :=
  match Binary64.quotient? a b with
  | some q => .ok q
  | none => .error .quotientTooLarge

/-- How full the context of a model is, and how many user messages are protected. -/
structure Occupancy where
  usage : Int
  limit : Int
  window : Int := 4
deriving DecidableEq

/-- The part of the limit that is in use; nothing, where there is no limit. -/
def Occupancy.ratio (o : Occupancy) : Except Fault Binary64 :=
  if o.limit ≤ 0 then .ok Binary64.zero else quotient o.usage o.limit

namespace Budget

/-- The number of characters that count as one token. -/
def charsPerToken : Int := 4

/-- A number of characters in tokens, rounded up. -/
def tokens (chars : Int) : Except Fault Int := do
  let q ← quotient chars charsPerToken
  match q.ceil? with
  | some n => return n
  | none => .error .infiniteInteger

/-- The tokens saved when a text shrinks. -/
def saved (sizeBefore sizeAfter : Int) : Except Fault Int :=
  tokens (sizeBefore - sizeAfter)

/-- The length of a content or result. A value that counts as false has none to speak of. -/
def chars (value : Json) : Except Fault Nat :=
  if value.truthy then
    match value.size? with
    | some n => .ok n
    | none => .error .wrongKind
  else .ok 0

/-- The characters of the results of tool calls. -/
def callChars : List ToolCall → Except Fault Nat
  | [] => .ok 0
  | call :: rest => do return (← chars call.result) + (← callChars rest)

/-- The characters of the contents and results of a conversation. -/
def messageChars : List Message → Except Fault Nat
  | [] => .ok 0
  | m :: rest => do
      let own ← chars m.content
      let results ← callChars m.toolCalls
      return own + results + (← messageChars rest)

/-- The estimated size of the next prompt: the input of the last model call and, on top of it, the
    conversation in tokens. -/
def promptTokens (messages : List Message) (lastInput : Int) : Except Fault Int := do
  return lastInput + (← tokens (← messageChars messages))

end Budget

end Parley
