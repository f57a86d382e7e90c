import Parley.Agent
import Parley.Price
import Parley.Prompt.Instructions
import Parley.Prompt.Rounds
import Parley.Turn.Round
set_option autoImplicit false

/-! # Turns

A turn answers the latest message of a conversation. It looks up the model, compacts the
conversation where the context is filling up, and then goes through rounds until the model replies
without asking for a tool, fails, or has had as many rounds as it may have. Compaction and the
trimming between rounds shape the prompt only.

A turn is suspended while the model is at work. `Turn.begin` runs it up to the first model call and
`Turn.resume` from one reply to the next call, each on the state as it is at that time, so other
turns can go on in between. A conversation has at most one turn in progress: it is entered in the
state when a turn begins and removed when that turn ends in any way. `Turn.run` goes through a turn
with nothing in between.

Other parts of the program may change the world of the tools, before the tools of a round are
started and while they are at work, but nothing else of the state then: that other turns begin or go
on in the middle of a round, or while a server is asked about the model, is not modelled. -/

namespace Parley.Turn

open Provider

variable {σ : Type}

/-- Why a turn ended. -/
inductive StopReason
  | endTurn
  | maxRounds
  | error
deriving DecidableEq

/-- The name of a reason. -/
def StopReason.name : StopReason → String
  | .endTurn => "end_turn"
  | .maxRounds => "max_rounds"
  | .error => "error"

/-- What a turn comes to. -/
structure Outcome where
  content : String
  toolCalls : List ToolCall
  report : Report
  rounds : Int
  stopReason : StopReason
  error : Option String
deriving DecidableEq

/-- A turn that is suspended in a model call. -/
structure Running where
  conversation : String
  model : String
  contextWindow : Int
  /-- The sections of the system prompt. -/
  sections : List String
  definitions : List Tool.Definition
  report : Report
  /-- The messages that the model is sent. -/
  prompt : List Json
  /-- The texts of the replies so far. -/
  texts : List String
  /-- The tool calls so far. -/
  executed : List ToolCall
  /-- The number of model calls, the one under way included. -/
  round : Int
deriving DecidableEq

/-- How far a turn has come. -/
inductive Progress
  | calling (turn : Running)
  | finished (outcome : Outcome)
deriving DecidableEq

namespace Running

/-- The model call that a turn is suspended in. -/
def call (turn : Running) : Client.Call where
  messages := turn.prompt
  tools := turn.definitions
  instructions := some (Prompt.Instructions.assemble turn.sections)
  model := some turn.model

/-- The outcome of a turn that ends here. -/
def outcome (turn : Running) (stopReason : StopReason) (error : Option String) : Outcome where
  content := "\n\n".intercalate turn.texts
  toolCalls := turn.executed
  report := turn.report
  rounds := turn.round
  stopReason := stopReason
  error := error

/-- The next model call, if there may be one. -/
def next (maxRounds : Int) (turn : Running) : Progress :=
  if turn.round < maxRounds then .calling { turn with round := turn.round + 1 }
  else .finished (turn.outcome .maxRounds none)

end Running

/-! ## Turns in progress -/

/-- Mark the end of a turn. -/
def release (id : String) (s : Agent.State σ) : Agent.State σ :=
  { s with active := s.active.erase id }

/-- Mark the end of a turn, unless it goes on with a model call. -/
def settle (id : String) (result : Except Fault Progress × Agent.State σ) :
    Except Fault Progress × Agent.State σ :=
  match result with
  | (.ok (.calling turn), s) => (.ok (.calling turn), s)
  | (other, s) => (other, release id s)

/-! ## The beginning -/

/-- The model of a conversation. -/
def modelOf (agent : Agent σ) (c : Conversation) : String :=
  if c.model.isEmpty then agent.model else c.model

/-- Compact the messages and put the prompt together, for a model whose context window is known. -/
def prepareFor (agent : Agent σ) (id : String) (messages : List Message) (now : Moment)
    (model : String) (window : Int) (s : Agent.State σ) :
    Except Fault Running × Agent.State σ :=
  match Budget.promptTokens messages (agent.conversation id s).lastInput with
  | .error fault => (.error fault, s)
  | .ok usage =>
      match agent.compactIn id messages usage window s with
      | (.error fault, s) => (.error fault, s)
      | (.ok done, s) =>
          let definitions := agent.tools.definitions
          let names := definitions.map Tool.Definition.name
          match Prompt.Instructions.sections (agent.conversation id s).systemPrompt
              messages.length usage window names now with
          | .error fault => (.error fault, s)
          | .ok sections =>
              (.ok {
                conversation := id
                model
                contextWindow := window
                sections
                definitions
                report := done.report
                prompt := Prompt.ofMessages done.messages
                texts := []
                executed := []
                round := 0 }, s)

/-- Look up the model and prepare its first call. -/
def prepare (agent : Agent σ) (id : String) (messages : List Message) (now : Moment)
    (s : Agent.State σ) : Except Fault Running × Agent.State σ :=
  let model := modelOf agent (agent.conversation id s)
  match Model.resolve model (some agent.provider) agent.endpoint s.directory with
  | (.error fault, directory) => (.error fault, { s with directory })
  | (.ok known, directory) =>
      prepareFor agent id messages now model known.contextWindow { s with directory }

/-- Begin a turn. A conversation that has a turn in progress is refused and nothing changes. -/
def begin (agent : Agent σ) (id : String) (messages : List Message) (now : Moment)
    (s : Agent.State σ) : Except Fault Progress × Agent.State σ :=
  if s.active.contains id then (.error (.turnInProgress id), s)
  else
    let entered := { s with active := id :: s.active }
    let (prepared, s) := prepare agent id messages now entered
    settle id (prepared.map (Running.next agent.settings.maxToolRounds), s)

/-! ## From one model call to the next -/

/-- Count a model call in the conversation. -/
def record (turn : Running) (reply : Reply) (c : Conversation) : Except Fault Unit × Conversation :=
  let c := { c with last := some ⟨reply.inputTokens, reply.outputTokens⟩ }
  match Price.cost (Price.ofModel turn.model) reply.inputTokens reply.outputTokens with
  | .error fault => (.error fault, c)
  | .ok cost =>
      let (result, usage) :=
        c.usage.record reply.inputTokens reply.outputTokens (.float cost) turn.contextWindow
      (result, { c with usage })

/-- The texts of a turn with that of one more reply. -/
def addText (content : String) (texts : List String) : List String :=
  if content.isEmpty then texts else texts ++ [content]

/-- Run the tool calls of a reply and trim the prompt. -/
def runRound (agent : Agent σ) (turn : Running) (reply : Reply) (s : Agent.State σ) :
    Except Fault Progress × Agent.State σ :=
  let (done, world) := runCalls agent.tools reply.toolCalls s.world
  let s := { s with world }
  let prompt := turn.prompt ++ roundMessages reply.content done
  match Prompt.Rounds.trim agent.settings.keptResults prompt with
  | .error fault => (.error fault, s)
  | .ok trimmed =>
      let turn := { turn with
        prompt := trimmed.prompt
        executed := turn.executed ++ done.map Done.toToolCall }
      (.ok (turn.next agent.settings.maxToolRounds), s)

/-- Go on with a turn after a reply. -/
def takeReply (agent : Agent σ) (turn : Running) (reply : Reply) (s : Agent.State σ) :
    Except Fault Progress × Agent.State σ :=
  let id := turn.conversation
  let (recorded, c) := record turn reply (agent.conversation id s)
  let s := s.remember id c
  match recorded with
  | .error fault => (.error fault, s)
  | .ok () =>
      let turn := { turn with texts := addText reply.content turn.texts }
      if reply.toolCalls.isEmpty then (.ok (.finished (turn.outcome .endTurn none)), s)
      else runRound agent turn reply s

/-- Resume a turn with the reply of the model, or with the text of the error that it failed with. -/
def resume (agent : Agent σ) (turn : Running) (reply : Except String Reply) (s : Agent.State σ) :
    Except Fault Progress × Agent.State σ :=
  settle turn.conversation <| match reply with
    | .error text => (.ok (.finished (turn.outcome .error (some text))), s)
    | .ok reply => takeReply agent turn reply s

/-! ## Whole turns -/

/-- The error of a model that has no more replies. -/
def noReply : String := "script exhausted"

/-- A turn that was gone through: what it came to, and the model calls it made. -/
structure Record (σ : Type) where
  result : Except Fault Outcome
  calls : List Running
  state : Agent.State σ

/-- Go through the rest of a turn with the replies that the model is going to give. -/
def finish (agent : Agent σ) : List (Except String Reply) → Except Fault Progress × Agent.State σ →
    Record σ
  | _, (.error fault, s) => ⟨.error fault, [], s⟩
  | _, (.ok (.finished outcome), s) => ⟨.ok outcome, [], s⟩
  | [], (.ok (.calling turn), s) =>
      ⟨.ok (turn.outcome .error (some noReply)), [turn], release turn.conversation s⟩
  | reply :: rest, (.ok (.calling turn), s) =>
      let later := finish agent rest (resume agent turn reply s)
      { later with calls := turn :: later.calls }

/-- Go through a turn with the replies that the model is going to give. -/
def run (agent : Agent σ) (id : String) (messages : List Message) (now : Moment)
    (replies : List (Except String Reply)) (s : Agent.State σ) : Record σ :=
  finish agent replies (begin agent id messages now s)

end Parley.Turn
