import Parley.Budget
import Parley.Model
set_option autoImplicit false

/-! # Prices

A price is what a million tokens cost, in dollars, for the input and the output of a model. A model
has the price of the first row that its identifier starts with, the vendor's own table first; a
model without a price is free. -/

namespace Parley

/-- What a million tokens cost, in dollars. -/
structure Price where
  input : Number
  output : Number
deriving DecidableEq

namespace Price

/-- A number of dollars. -/
def dollars (n : Int) : Number := .int n

/-- A number of cents, in dollars. -/
def cents (n : Nat) : Number := .float (Binary64.ofDecimal false n (-2))

/-- The price of a model that costs nothing. -/
def free : Price := ⟨dollars 0, dollars 0⟩

/-- The prices of the models of Anthropic, by the beginning of their names. -/
def anthropicTable : List (String × Price) := [
  ("claude-opus-4", ⟨dollars 15, dollars 75⟩),
  ("claude-sonnet-4", ⟨dollars 3, dollars 15⟩),
  ("claude-3-5-sonnet", ⟨dollars 3, dollars 15⟩),
  ("claude-3-5-haiku", ⟨cents 80, dollars 4⟩),
  ("claude-3-opus", ⟨dollars 15, dollars 75⟩),
  ("claude-3-sonnet", ⟨dollars 3, dollars 15⟩),
  ("claude-3-haiku", ⟨cents 25, cents 125⟩)]

/-- The prices of the models of OpenAI, by the beginning of their names. -/
def openAiTable : List (String × Price) := [
  ("gpt-4o-mini", ⟨cents 15, cents 60⟩),
  ("gpt-4o", ⟨cents 250, dollars 10⟩),
  ("gpt-4-turbo", ⟨dollars 10, dollars 30⟩),
  ("gpt-4", ⟨dollars 30, dollars 60⟩),
  ("gpt-3.5-turbo", ⟨cents 50, cents 150⟩)]

/-- The first row of a table that an identifier starts with. -/
def byStart? (identifier : String) : List (String × Price) → Option Price
  | [] => none
  | (start, price) :: rest =>
      if Text.startsWith start identifier then some price else byStart? identifier rest

/-- The price of a model. -/
def ofModel (model : String) : Price :=
  let identifier := Model.ofBedrock model
  match byStart? identifier anthropicTable with
  | some price => price
  | none =>
      match Ordered.find? identifier openAiTable with
      | some price => price
      | none => (byStart? identifier openAiTable).getD free

/-- A price as a float. -/
def rate (price : Number) : Except Fault Binary64 :=
  match price.toFloat? with
  | some x => .ok x
  | none => .error .integerTooLarge

/-- What some tokens cost at a price for a million of them. -/
def part (tokens : Int) (price : Number) : Except Fault Binary64 := do
  let millions ← quotient tokens 1000000
  return millions.mul (← rate price)

/-- What a model call costs. -/
def cost (price : Price) (inputTokens outputTokens : Int) : Except Fault Binary64 := do
  let input ← part inputTokens price.input
  return input.add (← part outputTokens price.output)

end Price

end Parley
