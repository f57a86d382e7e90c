import Parley.Proofs.Prompt.Instructions
import Parley.Proofs.Turn.Exclusion
import Parley.Proofs.Turn.Shaping
set_option autoImplicit false

/-! # What a conversation has used

What is remembered about a conversation is a tally of all replies that it was ever given
(`Tally`): the sums of their tokens, their costs added up in their order, and the counts of the last
one of them. A reply is counted before anything is done with it, so the tally holds at every point
of a turn, whatever comes next: another round, the last round that there may be, or a model call that
fails, which counts nothing (`conversation_resume_error`).

Compaction is counted apart, once when a turn begins (`begin_tally`). The size of the prompt
that a turn states to the model starts from the count of the last reply before it, in every model
call of the turn alike (`Stated`). -/

namespace Parley.Turn

open Provider Prompt.Rounds

variable {σ : Type}

/-! ## The tally -/

/-- What is remembered about a conversation of an agent that was given some replies, and in which
    compaction changed something in a number of turns. -/
structure Tally (agent : Agent σ) (replies : List Reply) (compactions : Int) (c : Conversation) :
    Prop where
  systemPrompt : c.systemPrompt = agent.settings.systemPrompt
  model : c.model = agent.model
  input : c.usage.inputTokens = (replies.map Reply.inputTokens).sum
  output : c.usage.outputTokens = (replies.map Reply.outputTokens).sum
  cost : ∃ costs, List.Forall₂ (fun reply amount => Price.cost (Price.ofModel agent.model)
      reply.inputTokens reply.outputTokens = .ok amount) replies costs ∧
    c.usage.cost = costs.foldl Binary64.add Binary64.zero
  last : c.last = replies.getLast?.map fun reply => ⟨reply.inputTokens, reply.outputTokens⟩
  context : c.usage.contextTokens = c.lastInput
  compactions : c.compactionCount = compactions

theorem tally_new (agent : Agent σ) :
    Tally agent [] 0 (Conversation.new agent.settings.systemPrompt agent.model) where
  systemPrompt := rfl
  model := rfl
  input := rfl
  output := rfl
  cost := ⟨[], .nil, rfl⟩
  last := rfl
  context := rfl
  compactions := rfl

namespace Tally

variable {agent : Agent σ} {replies : List Reply} {compactions : Int} {c : Conversation}

/-- A conversation has the model of its agent. -/
theorem modelOf_eq (tally : Tally agent replies compactions c) : modelOf agent c = agent.model := by
  unfold modelOf
  rw [tally.model]
  split <;> rfl

/-- A reply is counted. -/
theorem record (tally : Tally agent replies compactions c) {turn : Running}
    (hmodel : turn.model = agent.model) {reply : Reply} (hsmall : SmallCounts reply) :
    Tally agent (replies ++ [reply]) compactions (Turn.record turn reply c).2 := by
  obtain ⟨amount, hamount⟩ :=
    Price.cost_isOk (Price.hasRates_ofModel turn.model) hsmall.1 hsmall.2
  obtain ⟨costs, hcosts, htotal⟩ := tally.cost
  have hrecord : (Turn.record turn reply c).2 = { c with
      last := some ⟨reply.inputTokens, reply.outputTokens⟩
      usage := {
        inputTokens := c.usage.inputTokens + reply.inputTokens
        outputTokens := c.usage.outputTokens + reply.outputTokens
        cost := c.usage.cost.add amount
        contextTokens := reply.inputTokens
        contextWindow := turn.contextWindow } } := by
    unfold Turn.record
    rw [hamount]
    rfl
  rw [hrecord]
  refine ⟨tally.systemPrompt, tally.model, ?_, ?_, ⟨costs ++ [amount], ?_, ?_⟩, ?_, rfl,
    tally.compactions⟩
  · simp [tally.input]
  · simp [tally.output]
  · exact List.rel_append hcosts (.cons (hmodel ▸ hamount) .nil)
  · rw [List.foldl_append, ← htotal]
    rfl
  · rw [List.getLast?_concat]
    rfl

theorem countCompaction (tally : Tally agent replies compactions c) (changed : Bool) :
    Tally agent replies (compactions + if changed then 1 else 0) (c.countCompaction changed) := by
  cases changed with
  | false => simpa [Conversation.countCompaction] using tally
  | true =>
      exact ⟨tally.systemPrompt, tally.model, tally.input, tally.output, tally.cost, tally.last,
        tally.context, congrArg (· + 1) tally.compactions⟩

end Tally

/-! ## What stays the same in a turn -/

/-- The report of a turn, once it has come some way. -/
def Progress.report : Progress → Report
  | .calling turn => turn.report
  | .finished outcome => outcome.report

/-- What a turn goes on with: the same conversation, model, system prompt and report. -/
def Continues (turn : Running) (progress : Progress) : Prop :=
  progress.report = turn.report ∧ ∀ turn', progress = .calling turn' →
    turn'.conversation = turn.conversation ∧ turn'.model = turn.model ∧
      turn'.contextWindow = turn.contextWindow ∧ turn'.sections = turn.sections

theorem continues_next (turn : Running) (maxRounds : Int) :
    Continues turn (turn.next maxRounds) := by
  unfold Running.next
  split
  · refine ⟨rfl, ?_⟩
    intro turn' h
    cases h
    exact ⟨rfl, rfl, rfl, rfl⟩
  · exact ⟨rfl, fun _ h => by cases h⟩

theorem continues_resume {agent : Agent σ} {turn : Running} {reply : Except String Reply}
    {s : Agent.State σ} {progress : Progress}
    (h : (resume agent turn reply s).1 = .ok progress) : Continues turn progress := by
  unfold resume at h
  rw [fst_settle] at h
  cases reply with
  | error text =>
      cases h
      exact ⟨rfl, fun _ h => by cases h⟩
  | ok given =>
      simp only [takeReply] at h
      split at h
      · cases h
      · split at h
        · cases h
          exact ⟨rfl, fun _ h => by cases h⟩
        · simp only [runRound] at h
          split at h
          · cases h
          · cases h
            exact continues_next _ _

/-! ## What a model call counts -/

theorem conversation_settle (agent : Agent σ) (id other : String)
    (result : Except Fault Progress × Agent.State σ) :
    agent.conversation other (settle id result).2 = agent.conversation other result.2 := by
  unfold settle
  split <;> rfl

/-- A model call that fails counts nothing. -/
theorem conversation_resume_error (agent : Agent σ) (id : String) (turn : Running) (text : String)
    (s : Agent.State σ) :
    agent.conversation id (resume agent turn (.error text) s).2 = agent.conversation id s := by
  rw [resume, conversation_settle]

/-- A reply is counted, whatever is done with it afterwards. -/
theorem conversation_resume_ok (agent : Agent σ) (turn : Running) (reply : Reply)
    (s : Agent.State σ) :
    agent.conversation turn.conversation (resume agent turn (.ok reply) s).2
      = (record turn reply (agent.conversation turn.conversation s)).2 := by
  have hremember := fun c => conversation_remember agent turn.conversation turn.conversation c s
  simp only [if_pos] at hremember
  rw [resume, conversation_settle]
  simp only [takeReply]
  split
  · exact hremember _
  · split
    · exact hremember _
    · simp only [runRound]
      split
      · exact hremember _
      · exact hremember _

/-! ## The beginning of a turn -/

/-- A system prompt that states the size of the prompt: the input of the latest model call of a
    conversation, and on top of it the messages in tokens. -/
def Stated (agent : Agent σ) (c : Conversation) (messages : List Message) (now : Moment)
    (turn : Running) : Prop :=
  ∃ usage, Budget.promptTokens messages c.lastInput = .ok usage ∧
    Prompt.Instructions.sections c.systemPrompt messages.length usage turn.contextWindow
      (agent.tools.definitions.map Tool.Definition.name) now = .ok turn.sections

theorem Stated.of_continues {agent : Agent σ} {c : Conversation} {messages : List Message}
    {now : Moment} {turn turn' : Running} (h : Stated agent c messages now turn)
    (hcontinues : Continues turn (.calling turn')) : Stated agent c messages now turn' := by
  obtain ⟨usage, husage, hsections⟩ := h
  obtain ⟨-, -, hwindow, hsame⟩ := hcontinues.2 turn' rfl
  exact ⟨usage, husage, by rw [hwindow, hsame, hsections]⟩

theorem systemPrompt_countCompaction (changed : Bool) (c : Conversation) :
    (c.countCompaction changed).systemPrompt = c.systemPrompt := by
  cases changed <;> rfl

/-- Preparing a turn counts its compaction, and no tokens. -/
theorem prepare_counted {agent : Agent σ} {id : String} {messages : List Message} {now : Moment}
    {turn : Running} {s s' : Agent.State σ}
    (h : prepare agent id messages now s = (.ok turn, s')) :
    agent.conversation id s'
        = (agent.conversation id s).countCompaction (!turn.report.entries.isEmpty) ∧
      turn.model = modelOf agent (agent.conversation id s) ∧
      Stated agent (agent.conversation id s) messages now turn := by
  obtain ⟨known, directory, usage, done, sections, -, husage, -, rfl, hsections, rfl⟩ :=
    exists_of_prepare_eq_ok h
  rw [conversation_remember, if_pos rfl, systemPrompt_countCompaction] at hsections
  refine ⟨?_, rfl, usage, husage, hsections⟩
  rw [conversation_remember, if_pos rfl]

/-- A turn that begins has counted its compaction, and no tokens. -/
theorem begin_tally {agent : Agent σ} {id : String} {messages : List Message} {now : Moment}
    {progress : Progress} {s s' : Agent.State σ} {replies : List Reply} {compactions : Int}
    (htally : Tally agent replies compactions (agent.conversation id s))
    (h : begin agent id messages now s = (.ok progress, s')) :
    Tally agent replies (compactions + if !progress.report.entries.isEmpty then 1 else 0)
        (agent.conversation id s') ∧
      ∀ turn, progress = .calling turn → turn.conversation = id ∧ turn.model = agent.model ∧
        Stated agent (agent.conversation id s) messages now turn := by
  have hready := (begin_eq_ok h).2.2
  obtain ⟨first, before, hprepare, rfl, hsettled⟩ := exists_of_begin_eq_ok h
  have hstate := congrArg (fun result => agent.conversation id result.2) hsettled
  simp only [conversation_settle] at hstate
  obtain ⟨hcounted, hmodel, hstated⟩ := prepare_counted hprepare
  have hfirst := continues_next first agent.settings.maxToolRounds
  refine ⟨?_, ?_⟩
  · rw [← hstate, hcounted, hfirst.1]
    exact htally.countCompaction _
  · intro turn hturn
    obtain ⟨-, hsame, -, -⟩ := hfirst.2 turn hturn
    exact ⟨(hready turn hturn).1, hsame.trans (hmodel.trans htally.modelOf_eq),
      hstated.of_continues (hturn ▸ hfirst)⟩

/-! ## A turn -/

/-- The replies that a turn took, of those that the model was going to give. -/
def taken (replies : List (Except String Reply)) (gone : Record σ) : List Reply :=
  repliesIn (replies.take gone.calls.length)

theorem repliesIn_cons (reply : Except String Reply) (rest : List (Except String Reply)) :
    repliesIn (reply :: rest) = repliesIn [reply] ++ repliesIn rest := by
  cases reply <;> rfl

/-- The rest of a turn counts the replies that it takes, and keeps its report. -/
theorem finish_tally {agent : Agent σ} {replies : List (Except String Reply)} {turn : Running}
    {s : Agent.State σ} {before : List Reply} {compactions : Int} {outcome : Outcome}
    (hsmall : ∀ reply, .ok reply ∈ replies → SmallCounts reply) (hmodel : turn.model = agent.model)
    (htally : Tally agent before compactions (agent.conversation turn.conversation s))
    (h : (finish agent replies (.ok (.calling turn), s)).result = .ok outcome) :
    let gone := finish agent replies (.ok (.calling turn), s)
    Tally agent (before ++ taken replies gone) compactions
        (agent.conversation turn.conversation gone.state) ∧
      outcome.report = turn.report := by
  induction replies generalizing turn s before with
  | nil =>
      simp only [finish, Except.ok.injEq] at h ⊢
      rw [← h]
      exact ⟨(List.append_nil before).symm ▸ htally, rfl⟩
  | cons reply rest ih =>
      have hrest : ∀ reply, .ok reply ∈ rest → SmallCounts reply :=
        fun reply hmem => hsmall reply (List.mem_cons_of_mem _ hmem)
      -- what is remembered after the reply, whatever the turn does with it
      have hnext : Tally agent (before ++ repliesIn [reply]) compactions
          (agent.conversation turn.conversation (resume agent turn reply s).2) := by
        cases reply with
        | error text =>
            rw [conversation_resume_error]
            exact (List.append_nil before).symm ▸ htally
        | ok given =>
            rw [conversation_resume_ok]
            exact htally.record hmodel (hsmall given List.mem_cons_self)
      cases hresume : resume agent turn reply s with
      | mk result after =>
          rw [hresume] at hnext
          have hcontinues : ∀ progress, result = .ok progress → Continues turn progress :=
            fun _ hprogress => continues_resume ((congrArg Prod.fst hresume).trans hprogress)
          rcases result with fault | (next | last)
          · simp [finish, hresume] at h
          · obtain ⟨hreport, hcalling⟩ := hcontinues _ rfl
            obtain ⟨hid, hsame, -, -⟩ := hcalling next rfl
            rw [← hid] at hnext ⊢
            simp only [finish, hresume] at h ⊢
            obtain ⟨hlater, houtcome⟩ := ih hrest (hsame.trans hmodel) hnext h
            rw [List.append_assoc] at hlater
            refine ⟨?_, houtcome.trans hreport⟩
            unfold taken at hlater ⊢
            rwa [List.length_cons, List.take_succ_cons, repliesIn_cons]
          · simp only [finish, hresume, finish_finished, Except.ok.injEq] at h ⊢
            rw [← h]
            exact ⟨hnext, (hcontinues _ rfl).1⟩

/-- Every model call of a turn states the size of the prompt that the first one states. -/
theorem finish_stated {agent : Agent σ} {replies : List (Except String Reply)} {turn : Running}
    {s : Agent.State σ} {c : Conversation} {messages : List Message} {now : Moment}
    (hstated : Stated agent c messages now turn) :
    ∀ call ∈ (finish agent replies (.ok (.calling turn), s)).calls,
      Stated agent c messages now call := by
  induction replies generalizing turn s with
  | nil =>
      intro call hcall
      rwa [List.mem_singleton.1 hcall]
  | cons reply rest ih =>
      intro call hcall
      simp only [finish, List.mem_cons] at hcall
      rcases hcall with rfl | hlater
      · exact hstated
      · cases hresume : resume agent turn reply s with
        | mk result after =>
            rw [hresume] at hlater
            rcases result with fault | (next | last)
            · simp at hlater
            · have hnext := continues_resume (congrArg Prod.fst hresume)
              exact ih (hstated.of_continues hnext) call hlater
            · simp at hlater

theorem run_stated {agent : Agent σ} {id : String} {messages : List Message} {now : Moment}
    {replies : List (Except String Reply)} {s : Agent.State σ} {before : List Reply}
    {compactions : Int} (htally : Tally agent before compactions (agent.conversation id s)) :
    ∀ call ∈ (run agent id messages now replies s).calls,
      Stated agent (agent.conversation id s) messages now call := by
  intro call hcall
  unfold run at hcall
  cases hbegin : begin agent id messages now s with
  | mk result after =>
      rw [hbegin] at hcall
      rcases result with fault | (turn | last)
      · simp at hcall
      · obtain ⟨-, hfirst⟩ := begin_tally htally hbegin
        exact finish_stated (hfirst turn rfl).2.2 call hcall
      · simp at hcall

/-- A turn that returns counts the replies that it takes and the compaction that it reports. -/
theorem run_tally {agent : Agent σ} {id : String} {messages : List Message} {now : Moment}
    {replies : List (Except String Reply)} {s : Agent.State σ} {before : List Reply}
    {compactions : Int} {outcome : Outcome}
    (hsmall : ∀ reply, .ok reply ∈ replies → SmallCounts reply)
    (htally : Tally agent before compactions (agent.conversation id s))
    (h : (run agent id messages now replies s).result = .ok outcome) :
    let gone := run agent id messages now replies s
    Tally agent (before ++ taken replies gone)
      (compactions + if !outcome.report.entries.isEmpty then 1 else 0)
      (agent.conversation id gone.state) := by
  unfold run at h ⊢
  cases hbegin : begin agent id messages now s with
  | mk result after =>
      rw [hbegin] at h
      rcases result with fault | (turn | last)
      · simp at h
      · obtain ⟨hafter, hfirst⟩ := begin_tally htally hbegin
        obtain ⟨rfl, hmodel, -⟩ := hfirst turn rfl
        obtain ⟨hlater, hreport⟩ := finish_tally hsmall hmodel hafter h
        rwa [hreport]
      · obtain ⟨hafter, -⟩ := begin_tally htally hbegin
        simp only [finish_finished, Except.ok.injEq] at h ⊢
        rw [← h]
        exact (List.append_nil before).symm ▸ hafter

/-! ## Whole conversations -/

/-- A turn of a conversation: its messages, the time, and the replies that the model is going to
    give. Around the conversation, everything is as it may be when the turn begins. -/
structure Visit (σ : Type) where
  messages : List Message
  now : Moment
  replies : List (Except String Reply)
  surroundings : Agent.State σ

/-- Go through a turn of a conversation. -/
def Visit.run (agent : Agent σ) (id : String) (c : Conversation) (visit : Visit σ) : Record σ :=
  Turn.run agent id visit.messages visit.now visit.replies (visit.surroundings.remember id c)

/-- Go through the turns of a conversation one after another. What is remembered about the
    conversation is handed on from each turn to the next one. -/
def converse (agent : Agent σ) (id : String) :
    List (Visit σ) → Conversation → List (Visit σ × Record σ) × Conversation
  | [], c => ([], c)
  | visit :: rest, c =>
      let gone := visit.run agent id c
      let (later, last) := converse agent id rest (agent.conversation id gone.state)
      ((visit, gone) :: later, last)

/-- The replies that the turns of a conversation took. -/
def repliesOf (turns : List (Visit σ × Record σ)) : List Reply :=
  turns.flatMap fun (visit, gone) => taken visit.replies gone

/-- A turn returned a report with entries. -/
def compacted (turn : Visit σ × Record σ) : Bool :=
  match turn.2.result with
  | .ok outcome => !outcome.report.entries.isEmpty
  | .error _ => false

theorem converse_cons (agent : Agent σ) (id : String) (visit : Visit σ) (rest : List (Visit σ))
    (c : Conversation) :
    converse agent id (visit :: rest) c
      = let later := converse agent id rest (agent.conversation id (visit.run agent id c).state)
        ((visit, visit.run agent id c) :: later.1, later.2) := rfl

/-- A tally of some replies becomes a tally of those and the replies of all turns that follow. -/
theorem converse_tally {agent : Agent σ} {id : String} {visits : List (Visit σ)}
    {c : Conversation} {before : List Reply} {compactions : Int}
    (hsmall : ∀ visit ∈ visits, ∀ reply, .ok reply ∈ visit.replies → SmallCounts reply)
    (hended : ∀ turn ∈ (converse agent id visits c).1, ∃ outcome, turn.2.result = .ok outcome)
    (htally : Tally agent before compactions c) :
    Tally agent (before ++ repliesOf (converse agent id visits c).1)
      (compactions + ((converse agent id visits c).1.countP compacted : Int))
      (converse agent id visits c).2 := by
  induction visits generalizing c before compactions with
  | nil => simpa [converse, repliesOf] using htally
  | cons visit rest ih =>
      rw [converse_cons] at hended ⊢
      dsimp only at hended ⊢
      obtain ⟨outcome, houtcome⟩ := hended _ List.mem_cons_self
      dsimp only at houtcome
      have hremembered : agent.conversation id (visit.surroundings.remember id c) = c := by
        rw [conversation_remember, if_pos rfl]
      have hgone := run_tally (hsmall visit List.mem_cons_self) (hremembered.symm ▸ htally) houtcome
      have hlater := ih (fun other hother => hsmall other (List.mem_cons_of_mem _ hother))
        (fun turn hturn => hended turn (List.mem_cons_of_mem _ hturn)) hgone
      rw [List.append_assoc, add_assoc] at hlater
      rw [repliesOf, List.flatMap_cons, List.countP_cons]
      have hcompacted : compacted (visit, visit.run agent id c)
          = !outcome.report.entries.isEmpty := by
        simp only [compacted, houtcome]
      rw [hcompacted, add_comm (List.countP _ _)]
      push_cast
      exact hlater

/-- Fewer than `2 ^ 53` characters are stated as an exact ceiling, on top of the last input. -/
theorem promptTokens_eq_ok {messages : List Message} {lastInput usage : Int}
    (h : Budget.promptTokens messages lastInput = .ok usage) :
    ∃ total : Nat, Budget.messageChars messages = .ok total ∧
      (total < 2 ^ 53 → usage = lastInput + ⌈(total : Rat) / 4⌉) := by
  unfold Budget.promptTokens at h
  cases htotal : Budget.messageChars messages with
  | error fault => simp [htotal, bind, Except.bind] at h
  | ok total =>
      refine ⟨total, rfl, ?_⟩
      intro hsize
      have hchars : ((total : Int)).natAbs < 2 ^ 53 := hsize
      simp only [htotal, Budget.tokens_eq_ceil hchars.le, bind, Except.bind, pure, Except.pure,
        Except.ok.injEq] at h
      rw [← h, Int.cast_natCast]

/-- **Usage over whole conversations.** After any turns of a conversation that all came to an outcome,
    the tokens that it has used are the sums over all replies that the turns took, its cost is that
    of the replies at the price of its model, added up from zero in their order, and its context is
    the input of the last reply. The compactions that were counted are the turns that returned a
    report with entries. A model call that fails leaves what is remembered as it is. Every model call
    of a turn that comes next states the size of the prompt: the input of the last reply, and on top
    of it a quarter of the characters, rounded up, which is exact below `2 ^ 53` characters. For a
    model whose context window is a positive number, it stands on a line of the system prompt. -/
theorem converse_usage (agent : Agent σ) (id : String) (visits : List (Visit σ))
    (hsmall : ∀ visit ∈ visits, ∀ reply, .ok reply ∈ visit.replies → SmallCounts reply)
    (hended : ∀ turn ∈ (converse agent id visits
        (Conversation.new agent.settings.systemPrompt agent.model)).1,
      ∃ outcome, turn.2.result = .ok outcome) :
    let turns := (converse agent id visits
      (Conversation.new agent.settings.systemPrompt agent.model)).1
    let c := (converse agent id visits
      (Conversation.new agent.settings.systemPrompt agent.model)).2
    let replies := repliesOf turns
    c.usage.inputTokens = (replies.map Reply.inputTokens).sum ∧
    c.usage.outputTokens = (replies.map Reply.outputTokens).sum ∧
    (∃ costs, List.Forall₂ (fun reply amount => Price.cost (Price.ofModel c.model)
        reply.inputTokens reply.outputTokens = .ok amount) replies costs ∧
      c.usage.cost = costs.foldl Binary64.add Binary64.zero) ∧
    c.last = replies.getLast?.map (fun reply => ⟨reply.inputTokens, reply.outputTokens⟩) ∧
    c.usage.contextTokens = c.lastInput ∧
    c.compactionCount = turns.countP compacted ∧
    (∀ turn text s, agent.conversation id (resume agent turn (.error text) s).2
      = agent.conversation id s) ∧
    ∀ visit : Visit σ, ∀ turn ∈ (visit.run agent id c).calls,
      ∃ (total : Nat) (usage : Int) (sections : List String),
        Budget.messageChars visit.messages = .ok total ∧
        Budget.promptTokens visit.messages c.lastInput = .ok usage ∧
        (total < 2 ^ 53 → usage = c.lastInput + ⌈(total : Rat) / 4⌉) ∧
        Prompt.Instructions.sections c.systemPrompt visit.messages.length usage turn.contextWindow
          (agent.tools.definitions.map Tool.Definition.name) visit.now = .ok sections ∧
        turn.call.instructions = some (Prompt.Instructions.assemble sections) ∧
        (0 < turn.contextWindow → ∃ part,
          Prompt.Instructions.percent usage turn.contextWindow = .ok part ∧
          "\n".intercalate (Prompt.Instructions.contextLines visit.messages.length usage
            turn.contextWindow part) ∈ sections) := by
  intro turns c replies
  have htally : Tally agent replies (turns.countP compacted) c := by
    simpa using converse_tally hsmall hended (tally_new agent)
  refine ⟨htally.input, htally.output, htally.model ▸ htally.cost, htally.last, htally.context,
    htally.compactions, fun turn text s => conversation_resume_error agent id turn text s, ?_⟩
  intro visit turn hturn
  have hremembered : agent.conversation id (visit.surroundings.remember id c) = c := by
    rw [conversation_remember, if_pos rfl]
  obtain ⟨usage, husage, hsections⟩ := run_stated (hremembered.symm ▸ htally) turn hturn
  rw [hremembered] at husage hsections
  obtain ⟨total, htotal, hexact⟩ := promptTokens_eq_ok husage
  exact ⟨total, usage, turn.sections, htotal, husage, hexact, hsections, rfl,
    fun hwindow => Prompt.Instructions.exists_contextLines hwindow hsections⟩

/-- The clerk with a model that has a price, and passes that change long results. -/
def pricedClerk : Agent Unit :=
  { clerk with model := "claude-sonnet-4-20250514", pipeline := Pipeline.twoPasses }

/-- Two turns: one with a round of tool calls and then a model call that fails, and one with a long
    answer before it, at a time when the context is filling up. -/
def twoVisits : List (Visit Unit) := [
  { messages := [⟨.string "user", .string "q", []⟩]
    now := ⟨2024, 1, 1, 0, 0, 0, .none⟩
    replies := [.ok { twoCalls with inputTokens := 150000, outputTokens := 500 }, .error "lost"]
    surroundings := clerk.initial ⟨[], []⟩ () },
  { messages := Pipeline.exchange
    now := ⟨2024, 1, 1, 0, 0, 0, .none⟩
    replies := [.ok ⟨"done", [], 20000, 100⟩]
    surroundings := clerk.initial ⟨[], []⟩ () }]

/-- The turns that are gone through. -/
def twoTurns : List (Visit Unit × Record Unit) × Conversation :=
  converse pricedClerk "c" twoVisits
    (Conversation.new pricedClerk.settings.systemPrompt pricedClerk.model)

theorem converse_usage_twoVisits :
    let c := twoTurns.2
    c.usage.inputTokens = 170000 ∧ c.usage.outputTokens = 600 ∧ c.last = some ⟨20000, 100⟩ ∧
      c.usage.contextTokens = 20000 ∧ c.compactionCount = 1 := by
  have hsmall : ∀ visit ∈ twoVisits, ∀ reply, .ok reply ∈ visit.replies → SmallCounts reply := by
    intro visit hvisit reply hreply
    simp only [twoVisits, List.mem_cons, List.not_mem_nil, or_false] at hvisit
    rcases hvisit with rfl | rfl
    · simp only [List.mem_cons, List.not_mem_nil, or_false, Except.ok.injEq, reduceCtorEq]
        at hreply
      rw [hreply]
      decide
    · simp only [List.mem_cons, List.not_mem_nil, or_false, Except.ok.injEq] at hreply
      rw [hreply]
      decide
  -- what the two turns return is computed once
  have hturns : (twoTurns.1.all (fun turn => turn.2.result.isOk), repliesOf twoTurns.1,
      twoTurns.1.countP compacted)
      = (true, [{ twoCalls with inputTokens := 150000, outputTokens := 500 },
          ⟨"done", [], 20000, 100⟩], 1) := by
    decide +kernel
  simp only [Prod.mk.injEq] at hturns
  obtain ⟨hresults, hreplies, hcompacted⟩ := hturns
  have hended : ∀ turn ∈ twoTurns.1, ∃ outcome, turn.2.result = .ok outcome := by
    intro turn hturn
    have hok := List.all_eq_true.1 hresults turn hturn
    cases hresult : turn.2.result with
    | error fault => simp [hresult, Except.isOk, Except.toBool] at hok
    | ok outcome => exact ⟨outcome, rfl⟩
  obtain ⟨hinput, houtput, -, hlast, hcontext, hcompactions, -⟩ :=
    converse_usage pricedClerk "c" twoVisits hsmall hended
  change twoTurns.2.usage.inputTokens = ((repliesOf twoTurns.1).map _).sum at hinput
  change twoTurns.2.usage.outputTokens = ((repliesOf twoTurns.1).map _).sum at houtput
  change twoTurns.2.last = (repliesOf twoTurns.1).getLast?.map _ at hlast
  rw [hreplies] at hinput houtput hlast
  have hlastInput : twoTurns.2.lastInput = 20000 := by
    rw [Conversation.lastInput, hlast]
    rfl
  exact ⟨hinput, houtput, hlast, hcontext.trans hlastInput,
    hcompactions.trans (congrArg _ hcompacted)⟩

end Parley.Turn
