import Parley.Budget
set_option autoImplicit false

/-! # Trimming a prompt between rounds

While a turn goes through several rounds, tool results pile up in its prompt. The newest ones are
kept. Every older result whose content is a text of more than 200 characters gives way to a
placeholder that states the length of the text. Nothing else in the prompt changes.

A prompt is a list of JSON values, because that is what a model is sent. A prompt that holds
anything but objects is refused before anything is trimmed. -/

namespace Parley.Prompt

/-- A prompt after trimming, and the lengths before and after of every content that gave way. -/
structure Trimmed where
  prompt : List Json
  cuts : List (Nat × Nat)
deriving DecidableEq

namespace Rounds

/-- Contents of at most this many characters are never trimmed. -/
def keptLength : Nat := 200

/-- What is put in place of a content. -/
def placeholder (sizeBefore : Nat) : String :=
  "[Tool result truncated: " ++ decimalText sizeBefore ++ " chars]"

/-- A block that holds the result of a tool call. -/
def isResult (block : Json) : Bool :=
  decide (block.field? "type" = some (.string "tool_result"))

/-- A result block with the placeholder in place of a long text, and the two lengths. -/
def shortened? (block : Json) : Option (Json × Nat × Nat) :=
  match block with
  | .object fields =>
      match Ordered.find? "content" fields with
      | some (.string text) =>
          if keptLength < text.length then
            let short := placeholder text.length
            some (.object (Ordered.insert "content" (.string short) fields),
              text.length, short.length)
          else none
      | _ => none
  | _ => none

/-- The blocks that a message holds, where it is one that can hold tool results: a message of the
    user whose content is a list. -/
def blocks? (message : Json) : Option (List Json) :=
  if message.field? "role" = some (.string "user") then (message.field? "content").bind Json.items?
  else none

/-- A message with other blocks. -/
def withBlocks (blocks : List Json) : Json → Json
  | .object fields => .object (Ordered.insert "content" (.array blocks) fields)
  | other => other

/-- Trim the blocks of one message, with `later` results in the messages after it. The count is that
    of the results from the first block on. -/
def trimBlocks (keep later : Nat) : List Json → List Json × Nat × List (Nat × Nat)
  | [] => ([], later, [])
  | block :: rest =>
      let (trimmed, after, cuts) := trimBlocks keep later rest
      if isResult block then
        if keep ≤ after then
          match shortened? block with
          | some (short, cut) => (short :: trimmed, after + 1, cut :: cuts)
          | none => (block :: trimmed, after + 1, cuts)
        else (block :: trimmed, after + 1, cuts)
      else (block :: trimmed, after, cuts)

/-- Trim the messages of a prompt. The count is that of the results in them. -/
def trimMessages (keep : Nat) : List Json → List Json × Nat × List (Nat × Nat)
  | [] => ([], 0, [])
  | message :: rest =>
      let (trimmed, later, cuts) := trimMessages keep rest
      match blocks? message with
      | some blocks =>
          let (blocks, count, own) := trimBlocks keep later blocks
          (withBlocks blocks message :: trimmed, count, own ++ cuts)
      | none => (message :: trimmed, later, cuts)

/-- Trim a prompt down to its `keep` newest results, none of them if that is negative. -/
def trim (keep : Int) (prompt : List Json) : Except Fault Trimmed :=
  if prompt.all fun message => message.fields?.isSome then
    let (trimmed, _, cuts) := trimMessages keep.toNat prompt
    .ok ⟨trimmed, cuts⟩
  else .error .notAnObject

/-- The tokens saved by a list of cuts. -/
def tokensSaved : List (Nat × Nat) → Except Fault Int
  | [] => .ok 0
  | (before, after) :: rest => do
      let own ← Budget.saved before after
      return own + (← tokensSaved rest)

end Rounds

end Parley.Prompt
