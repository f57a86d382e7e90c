import Parley.Budget
set_option autoImplicit false

/-! # Usage of a conversation

Tokens and cost add up over all model calls of a conversation. How full the context is depends on
the latest call alone. -/

namespace Parley

/-- What a conversation has used. -/
structure Usage where
  inputTokens : Int
  outputTokens : Int
  cost : Binary64
  /-- The input of the latest call. -/
  contextTokens : Int
  contextWindow : Int
deriving DecidableEq

namespace Usage

/-- Before the first call. -/
def none : Usage := ⟨0, 0, Binary64.zero, 0, 0⟩

/-- Count a call. A cost that has no float is a fault; the tokens of the call are counted even then,
    but the context is left as it was. -/
def record (input output : Int) (cost : Number) (window : Int) (u : Usage) :
    Except Fault Unit × Usage :=
  let counted := { u with
    inputTokens := u.inputTokens + input
    outputTokens := u.outputTokens + output }
  match cost.toFloat? with
  | .none => (.error .integerTooLarge, counted)
  | .some amount =>
      (.ok (), { counted with
        cost := counted.cost.add amount
        contextTokens := input
        contextWindow := window })

/-- The part of the context window that the latest call took up. -/
def ratio (u : Usage) : Except Fault Binary64 :=
  if u.contextWindow ≤ 0 then .ok Binary64.zero else quotient u.contextTokens u.contextWindow

end Usage

end Parley
