import Parley.Proofs.Turn.Fresh
import Parley.Proofs.Turn.Returns
set_option autoImplicit false

/-! # Shaping prompts and nothing else

Three settings decide how prompts are shaped: whether conversations are compacted, how much of them
is protected, and how many results are kept between rounds. Two agents that differ in these alone go
through a turn side by side: what is left of the turn without its prompt and its report
(`Running.bare`) is the same at every model call, and what is remembered is the same but for the
number of compactions (`Agree`).

The two turns begin with the same bare turn, since the size of the prompt is that of the messages
before compaction (`prepareFor_bare`), and a reply takes them to the same bare turn again, since
tool calls are run and counted apart from what the prompt makes of them (`along_resume`). -/

namespace Parley.Turn

open Provider Prompt.Rounds

variable {σ : Type}

/-! ## Agents that differ in how they shape prompts -/

/-- How prompts are shaped. -/
structure Shaping where
  compactionEnabled : Bool
  recentWindow : Int
  keptResults : Int

/-- An agent that shapes its prompts in some way. -/
def Shaping.of (shaping : Shaping) (agent : Agent σ) : Agent σ :=
  { agent with settings := { agent.settings with
      compactionEnabled := shaping.compactionEnabled
      recentWindow := shaping.recentWindow
      keptResults := shaping.keptResults } }

/-! ## What does not depend on the shape -/

/-- A turn without its prompt and its report. -/
def Running.bare (turn : Running) : Running :=
  { turn with prompt := [], report := Report.empty }

/-- An outcome without its report. -/
def Outcome.bare (outcome : Outcome) : Outcome :=
  { outcome with report := Report.empty }

/-- How far a turn has come, without prompt and report. -/
def Progress.bare : Progress → Progress
  | .calling turn => .calling turn.bare
  | .finished outcome => .finished outcome.bare

/-- What is remembered about a conversation, without the number of compactions. -/
def uncounted (c : Conversation) : Conversation :=
  { c with compactionCount := 0 }

/-- Two states that differ at most in the number of compactions of one conversation. -/
structure Agree (agent : Agent σ) (id : String) (s s' : Agent.State σ) : Prop where
  directory : s'.directory = s.directory
  active : s'.active = s.active
  world : s'.world = s.world
  others : ∀ other, other ≠ id → agent.conversation other s' = agent.conversation other s
  own : uncounted (agent.conversation id s') = uncounted (agent.conversation id s)

/-- Two results of a part of a turn that differ at most in the shape of a prompt. -/
structure Along (agent : Agent σ) (id : String)
    (result result' : Except Fault Progress × Agent.State σ) : Prop where
  progress : result'.1.map Progress.bare = result.1.map Progress.bare
  state : Agree agent id result.2 result'.2

theorem conversation_remember (agent : Agent σ) (id other : String) (c : Conversation)
    (s : Agent.State σ) :
    agent.conversation other (s.remember id c)
      = if id = other then c else agent.conversation other s := by
  unfold Agent.conversation Agent.State.remember
  rw [Ordered.find?_insert]
  split_ifs <;> rfl

namespace Agree

variable {agent : Agent σ} {id : String} {s s' s'' : Agent.State σ}

theorem refl (agent : Agent σ) (id : String) (s : Agent.State σ) : Agree agent id s s :=
  ⟨rfl, rfl, rfl, fun _ _ => rfl, rfl⟩

theorem symm (h : Agree agent id s s') : Agree agent id s' s :=
  ⟨h.directory.symm, h.active.symm, h.world.symm, fun other hne => (h.others other hne).symm,
    h.own.symm⟩

theorem trans (h : Agree agent id s s') (h' : Agree agent id s' s'') : Agree agent id s s'' :=
  ⟨h'.directory.trans h.directory, h'.active.trans h.active, h'.world.trans h.world,
    fun other hne => (h'.others other hne).trans (h.others other hne), h'.own.trans h.own⟩

theorem remember (h : Agree agent id s s') {c c' : Conversation}
    (hc : uncounted c' = uncounted c) : Agree agent id (s.remember id c) (s'.remember id c') where
  directory := h.directory
  active := h.active
  world := h.world
  others other hne := by
    rw [conversation_remember, conversation_remember, if_neg (Ne.symm hne), if_neg (Ne.symm hne)]
    exact h.others other hne
  own := by
    rw [conversation_remember, conversation_remember, if_pos rfl, if_pos rfl]
    exact hc

/-- Counting a compaction is the only difference. -/
theorem countCompaction (agent : Agent σ) (id : String) (s : Agent.State σ) (changed : Bool) :
    Agree agent id s (s.remember id ((agent.conversation id s).countCompaction changed)) where
  directory := rfl
  active := rfl
  world := rfl
  others other hne := by rw [conversation_remember, if_neg (Ne.symm hne)]
  own := by
    rw [conversation_remember, if_pos rfl]
    cases changed <;> rfl

theorem release (h : Agree agent id s s') :
    Agree agent id (Turn.release id s) (Turn.release id s') :=
  ⟨h.directory, congrArg (List.erase · id) h.active, h.world, h.others, h.own⟩

end Agree

theorem progress_cases {progress progress' : Except Fault Progress}
    (h : progress'.map Progress.bare = progress.map Progress.bare) :
    (∃ fault, progress = .error fault ∧ progress' = .error fault) ∨
    (∃ outcome outcome', progress = .ok (.finished outcome) ∧
      progress' = .ok (.finished outcome') ∧ outcome'.bare = outcome.bare) ∨
    ∃ turn turn', progress = .ok (.calling turn) ∧ progress' = .ok (.calling turn') ∧
      turn'.bare = turn.bare := by
  match progress, progress' with
  | .error fault, .error fault' => exact .inl ⟨fault, rfl, congrArg _ (Except.error.inj h)⟩
  | .ok (.finished outcome), .ok (.finished outcome') =>
      exact .inr (.inl ⟨_, _, rfl, rfl, Progress.finished.inj (Except.ok.inj h)⟩)
  | .ok (.calling turn), .ok (.calling turn') =>
      exact .inr (.inr ⟨_, _, rfl, rfl, Progress.calling.inj (Except.ok.inj h)⟩)
  | .error _, .ok _ => cases h
  | .ok _, .error _ => cases h
  | .ok (.calling _), .ok (.finished _) => cases h
  | .ok (.finished _), .ok (.calling _) => cases h

/-- What goes on side by side, goes on or ends side by side. -/
theorem Along.settle {agent : Agent σ} {id : String}
    {result result' : Except Fault Progress × Agent.State σ} (h : Along agent id result result') :
    Along agent id (settle id result) (settle id result') := by
  obtain ⟨progress, s⟩ := result
  obtain ⟨progress', s'⟩ := result'
  obtain ⟨hprogress, hstate⟩ := h
  rcases progress_cases hprogress with
    ⟨fault, rfl, rfl⟩ | ⟨outcome, outcome', rfl, rfl, -⟩ | ⟨turn, turn', rfl, rfl, -⟩
  · exact ⟨hprogress, hstate.release⟩
  · exact ⟨hprogress, hstate.release⟩
  · exact ⟨hprogress, hstate⟩

/-! ## The first model call -/

/-- The first model call of a turn, without prompt and report. -/
def opening (agent : Agent σ) (id : String) (messages : List Message) (now : Moment)
    (model : String) (window : Int) (c : Conversation) : Except Fault Running := do
  let usage ← Budget.promptTokens messages c.lastInput
  let definitions := agent.tools.definitions
  let sections ← Prompt.Instructions.sections c.systemPrompt messages.length usage window
    (definitions.map Tool.Definition.name) now
  return {
    conversation := id
    model
    contextWindow := window
    sections
    definitions
    report := Report.empty
    prompt := []
    texts := []
    executed := []
    round := 0 }

/-- The replies among what a model gives. -/
def repliesIn (given : List (Except String Reply)) : List Reply :=
  given.filterMap Except.toOption

end Parley.Turn
