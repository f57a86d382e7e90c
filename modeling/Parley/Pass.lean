import Parley.Budget
import Parley.Pruner
import Parley.Report
import Parley.Window
set_option autoImplicit false

/-! # Compaction passes

A pass puts shorter texts in place of tool results, in the messages before the window, and reports
an entry for each. Which results get a new text is decided by its strategy, call by call; everything
else about a message stays as it is. A pass that changed nothing does not list itself in its
report. -/

namespace Parley

/-- How a pass decides on the new text of a result. -/
inductive Strategy
  /-- Shorten the results in messages of the assistant by a pruner's rule. -/
  | prune (pruner : Pruner)
  /-- Put a fixed text in place of every longer result. -/
  | replace (text : String)
  /-- Change nothing. -/
  | watch
deriving DecidableEq

/-- A pass, with the name under which it reports. -/
structure Pass where
  name : String
  /-- The part of the limit from which on the pass is active. -/
  threshold : Number
  strategy : Strategy
deriving DecidableEq

/-- A conversation after compaction, and what was done to it. -/
structure Compaction where
  messages : List Message
  report : Report
deriving DecidableEq

namespace Strategy

/-- The messages whose tool calls a strategy looks at. -/
def reaches : Strategy → Message → Bool
  | .prune _, m => m.isAssistant
  | .replace _, _ => true
  | .watch, _ => false

/-- The new text of a result, if it gets one. -/
def replacement? : Strategy → ToolCall → Except Fault (Option String)
  | .prune pruner, call => pruner.replacement? call
  | .replace text, call =>
      if call.result = .null then .ok none
      else match call.result.size? with
        | none => .error .wrongKind
        | some size => .ok (Pruner.ifShorter size text)
  | .watch, _ => .ok none

/-- The name of the kind of pass that follows the strategy. -/
def kind : Strategy → String
  | .prune _ => "ToolResponsePruner"
  | .replace _ => "StubPass"
  | .watch => "StubPass"

/-! ## Compaction -/

/-- One tool call of the message at some index, and the entry for it where its result
    gets a new text. -/
def compactCall (s : Strategy) (index : Nat) (call : ToolCall) :
    Except Fault (ToolCall × List Entry) := do
  match ← s.replacement? call with
  | none => return (call, [])
  | some text =>
      let entry : Entry := {
        messageIndex := index
        toolCallId := call.id
        toolName := call.name
        action := Entry.truncated
        sizeBefore := (call.result.size?.getD 0 : Nat)
        sizeAfter := text.length }
      return ({ call with result := .string text }, [entry])

/-- The tool calls of the message at some index. -/
def compactCalls (s : Strategy) (index : Nat) :
    List ToolCall → Except Fault (List ToolCall × List Entry)
  | [] => .ok ([], [])
  | call :: rest => do
      let (call, own) ← s.compactCall index call
      let (rest, others) ← s.compactCalls index rest
      return (call :: rest, own ++ others)

/-- The message at some index. -/
def compactMessage (s : Strategy) (index : Nat) (m : Message) :
    Except Fault (Message × List Entry) := do
  if s.reaches m then
    let (calls, entries) ← s.compactCalls index m.toolCalls
    return ({ m with toolCalls := calls }, entries)
  else return (m, [])

/-- The messages from some index on; those at or after `boundary` are protected. -/
def compactFrom (s : Strategy) (boundary : Nat) :
    Nat → List Message → Except Fault (List Message × List Entry)
  | _, [] => .ok ([], [])
  | index, m :: rest =>
      if boundary ≤ index then .ok (m :: rest, [])
      else do
        let (m, own) ← s.compactMessage index m
        let (rest, others) ← s.compactFrom boundary (index + 1) rest
        return (m :: rest, own ++ others)

end Strategy

/-- The tokens saved by a list of entries. -/
def Entry.tokensSaved : List Entry → Except Fault Int
  | [] => .ok 0
  | e :: rest => do
      let own ← Budget.saved e.sizeBefore e.sizeAfter
      return own + (← tokensSaved rest)

namespace Pass

/-- Run a pass over a conversation. -/
def compact (p : Pass) (messages : List Message) (window : Int) : Except Fault Compaction := do
  let (compacted, entries) ← p.strategy.compactFrom (Window.start messages window) 0 messages
  let saved ← Entry.tokensSaved entries
  return {
    messages := compacted
    report := {
      passesRun := if entries.isEmpty then [] else [p.name]
      entries
      tokensSaved := saved } }

/-- The pass that prunes tool results once half of the limit is in use. -/
def pruner (p : Pruner) : Pass where
  name := "tool-response-pruner"
  threshold := .float (.finite false 4503599627370496 (-53))
  strategy := .prune p

/-- A pass with its kind, name and threshold. -/
def describe (p : Pass) : String :=
  p.strategy.kind ++ "(name=" ++ Text.quoted p.name ++ ", threshold="
    ++ p.threshold.text FloatLayout.display ++ ")"

end Pass

end Parley
