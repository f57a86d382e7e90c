import Parley.Turn
import Parley.Proofs.Prompt.Rounds
import Parley.Proofs.Work
set_option autoImplicit false

/-! # Calls and results in the prompt of a turn

At every model call the prompt is that of the compacted conversation, with two messages for each
round before: one of the assistant that asks for the calls of the reply, and one of the user that
answers each of them, in the same order (`Paired`). One step appends two such messages and trims
(`resume_eq_calling`), and trimming only cuts contents, so by induction over the replies the prompt
at a call is a cut of everything that was ever put into it (`calls_cut`). -/

namespace Parley.Turn

open Provider Prompt.Rounds

variable {σ : Type}

/-! ## What comes of a call -/

/-- What a tool call comes to: what its tool brings back, and nothing if there is no tool of its
    name. -/
def attempt (tools : Tool.Registry σ) (call : Requested) :
    Work σ (Option (Except String Tool.Result)) :=
  match tools.get? call.name with
  | none => .done none
  | some tool => (tool.execute call.arguments).map some

/-- Whether a tool call failed: there is no tool of its name, the tool raised an error, or it
    reported a failure itself. -/
def failed : Option (Except String Tool.Result) → Bool
  | none => true
  | some (.error _) => true
  | some (.ok result) => !result.success

/-- Calls that are run at the same time, and whether they fail. -/
def attempts (tools : Tool.Registry σ) (calls : List Requested) (world : Work.World σ) :
    List (Requested × Bool) :=
  calls.zip ((Work.gather (calls.map (attempt tools)) world).1.map failed)

theorem map_workOf (tools : Tool.Registry σ) (call : Requested) :
    (workOf tools call).map (fun result => !result.success) = (attempt tools call).map failed := by
  unfold workOf Tool.Registry.work attempt
  cases tools.get? call.name with
  | none => rfl
  | some tool =>
      simp only [Work.map_map]
      congr 1
      funext brought
      cases brought <;> rfl

theorem runCalls_eq (tools : Tool.Registry σ) (calls : List Requested) (world : Work.World σ) :
    (runCalls tools calls world).1.map (fun d => (d.call, !d.result.success))
      = attempts tools calls world := by
  have hworks : (calls.map (workOf tools)).map (Work.map fun result => !result.success)
      = (calls.map (attempt tools)).map (Work.map failed) := by
    simp only [List.map_map, Function.comp_def, map_workOf]
  have hgather := congrArg (fun works => (Work.gather works world).1) hworks
  simp only [Work.gather_map] at hgather
  unfold runCalls attempts
  rw [← hgather, List.map_zipWith, List.zip_map_right, List.zip, List.map_zipWith]
  rfl

/-! ## Pairs of messages -/

/-- The blocks of a prompt message. -/
def blocksOf (message : Json) : List Json :=
  ((message.field? "content").bind Json.items?).getD []

/-- A message of the assistant that asks for some calls, and one of the user that answers each of
    them with one result. -/
structure Paired (attempted : List (Requested × Bool)) (ask answer : Json) : Prop where
  assistant : ask.field? "role" = some (.string "assistant")
  calls : ((blocksOf ask).filter (isBlock "tool_use")).map
      (fun block => (block.field? "id", block.field? "name", block.field? "input"))
    = attempted.map fun a =>
        (some a.1.id, some (.string a.1.name), some (.object a.1.arguments))
  user : answer.field? "role" = some (.string "user")
  results : (blocksOf answer).map
      (fun block => (block.field? "type", block.field? "tool_use_id", block.field? "is_error"))
    = attempted.map fun a => (some (.string "tool_result"), some a.1.id, some (.bool a.2))

theorem eq_of_cut_replyMessage {content : String} {done : List Done} {ask : Json}
    (h : MessageCut (replyMessage content done) ask) : ask = replyMessage content done := by
  cases h with
  | same => rfl
  | cut hblocks hcut =>
      have hnone : blocks? (replyMessage content done) = none := by
        simp [blocks?, replyMessage, Prompt.entry, Json.field?, Ordered.find?]
      rw [hnone] at hblocks
      exact absurd hblocks (by simp)

theorem blocks_of_cut_resultMessage {done : List Done} {answer : Json}
    (h : MessageCut (resultMessage done) answer) :
    ∃ blocks, answer = Prompt.entry "user" (.array blocks) ∧
      List.Forall₂ BlockCut (done.map Done.resultBlock) blocks := by
  have hblocks : blocks? (resultMessage done) = some (done.map Done.resultBlock) := by
    simp [blocks?, resultMessage, Prompt.entry, Json.field?, Ordered.find?, Json.items?]
  cases h with
  | same => exact ⟨_, rfl, List.forall₂_same.2 fun block _ => .same block⟩
  | cut hblocks' hcut =>
      rw [hblocks] at hblocks'
      cases hblocks'
      exact ⟨_, by simp [withBlocks, resultMessage, Prompt.entry, Ordered.insert], hcut⟩

theorem filter_toolUse (content : String) (done : List Done) :
    (blocksOf (replyMessage content done)).filter (isBlock "tool_use")
      = done.map Done.useBlock := by
  have htext : isBlock "tool_use" (Prompt.textBlock (.string content)) = false := by
    simp [isBlock, Prompt.textBlock, Json.field?, Ordered.find?]
  have huse : ∀ block ∈ done.map Done.useBlock, isBlock "tool_use" block = true := by
    intro block hblock
    obtain ⟨d, -, rfl⟩ := List.mem_map.1 hblock
    simp [isBlock, Done.useBlock, Prompt.toolUseBlock, Json.field?, Ordered.find?]
  have hblocks : blocksOf (replyMessage content done)
      = (if content.isEmpty then [] else [Prompt.textBlock (.string content)])
        ++ done.map Done.useBlock := by
    simp [blocksOf, replyMessage, Prompt.entry, Json.field?, Ordered.find?, Json.items?]
  rw [hblocks, List.filter_append, List.filter_eq_self.2 huse]
  split_ifs <;> simp [htext]

/-- Cut results answer the same calls in the same way. -/
theorem answers_of_cut {before after : List Json} (h : List.Forall₂ BlockCut before after) :
    after.map (fun block =>
        (block.field? "type", block.field? "tool_use_id", block.field? "is_error"))
      = before.map fun block =>
          (block.field? "type", block.field? "tool_use_id", block.field? "is_error") := by
  induction h with
  | nil => rfl
  | cons hblock _ ih =>
      rw [List.map_cons, List.map_cons, ih, hblock.field?_eq (by decide),
        hblock.field?_eq (by decide), hblock.field?_eq (by decide)]

/-- The two messages of a round are paired, also after results in them were cut. -/
theorem paired_of_cut {content : String} {done : List Done} {ask answer : Json}
    (hask : MessageCut (replyMessage content done) ask)
    (hanswer : MessageCut (resultMessage done) answer) :
    Paired (done.map fun d => (d.call, !d.result.success)) ask answer := by
  obtain ⟨blocks, rfl, hcut⟩ := blocks_of_cut_resultMessage hanswer
  rw [eq_of_cut_replyMessage hask]
  refine ⟨rfl, ?_, rfl, ?_⟩
  · rw [filter_toolUse, List.map_map, List.map_map]
    refine List.map_congr_left fun d _ => ?_
    simp [Done.useBlock, Prompt.toolUseBlock, Json.field?, Ordered.find?]
  · have hblocks : blocksOf (Prompt.entry "user" (.array blocks)) = blocks := by
      simp [blocksOf, Prompt.entry, Json.field?, Ordered.find?, Json.items?]
    rw [hblocks, answers_of_cut hcut, List.map_map, List.map_map]
    refine List.map_congr_left fun d _ => ?_
    simp [Done.resultBlock, Prompt.toolResultBlock, Json.field?, Ordered.find?]

/-! ## One step of a turn -/

theorem settle_eq_calling {id : String} {result : Except Fault Progress × Agent.State σ}
    {turn : Running} {s : Agent.State σ} (h : settle id result = (.ok (.calling turn), s)) :
    result = (.ok (.calling turn), s) := by
  unfold settle at h
  split at h
  · exact h
  · next other s' hother =>
      simp only [Prod.mk.injEq] at h
      exact absurd h.1 (hother turn)

theorem settle_eq_ok {id : String} {result : Except Fault Progress × Agent.State σ}
    {progress : Progress} {s : Agent.State σ} (h : settle id result = (.ok progress, s)) :
    result.1 = .ok progress ∧ s.world = result.2.world := by
  unfold settle at h
  split at h
  · cases h
    exact ⟨rfl, rfl⟩
  · cases h
    exact ⟨rfl, rfl⟩

theorem next_eq_calling {maxRounds : Int} {turn turn' : Running}
    (h : turn.next maxRounds = .calling turn') : turn'.prompt = turn.prompt := by
  unfold Running.next at h
  split_ifs at h
  cases h
  rfl

/-- A model call after the tool calls of a reply: they were run, the two messages of the round were
    appended, and the prompt was trimmed. -/
theorem runRound_eq_calling {agent : Agent σ} {turn turn' : Running} {reply : Reply}
    {s s' : Agent.State σ} (h : runRound agent turn reply s = (.ok (.calling turn'), s')) :
    s'.world = (runCalls agent.tools reply.toolCalls s.world).2 ∧
    ∃ trimmed, trim agent.settings.keptResults (turn.prompt
        ++ roundMessages reply.content (runCalls agent.tools reply.toolCalls s.world).1)
      = .ok trimmed ∧ turn'.prompt = trimmed.prompt := by
  unfold runRound at h
  cases hrun : runCalls agent.tools reply.toolCalls s.world with
  | mk done world =>
      simp only [hrun] at h
      split at h
      · exact absurd h (by simp)
      · next trimmed htrim =>
          simp only [Prod.mk.injEq, Except.ok.injEq] at h
          obtain ⟨hnext, rfl⟩ := h
          exact ⟨rfl, trimmed, htrim, next_eq_calling hnext⟩

/-- A turn that goes on after a reply goes through a round. -/
theorem resume_eq_calling {agent : Agent σ} {turn turn' : Running} {reply : Except String Reply}
    {s s' : Agent.State σ} (h : resume agent turn reply s = (.ok (.calling turn'), s')) :
    ∃ given, reply = .ok given ∧
      s'.world = (runCalls agent.tools given.toolCalls s.world).2 ∧
      ∃ trimmed, trim agent.settings.keptResults (turn.prompt
          ++ roundMessages given.content (runCalls agent.tools given.toolCalls s.world).1)
        = .ok trimmed ∧ turn'.prompt = trimmed.prompt := by
  have hreply := settle_eq_calling h
  cases reply with
  | error text => exact absurd hreply (by simp)
  | ok given =>
      refine ⟨given, rfl, ?_⟩
      simp only [takeReply] at hreply
      split at hreply
      · exact absurd hreply (by simp)
      · split_ifs at hreply
        · exact absurd hreply (by simp)
        · have hround := runRound_eq_calling hreply
          exact hround

/-- The prompt of the first model call of a turn: that of the messages after compaction, for the
    context window of the model and the estimated size of the prompt. -/
def Opening (agent : Agent σ) (id : String) (messages : List Message) (s : Agent.State σ)
    (prompt : List Json) : Prop :=
  ∃ known usage done,
    (Model.resolve (modelOf agent (agent.conversation id s)) (some agent.provider) agent.endpoint
      s.directory).1 = .ok known ∧
    Budget.promptTokens messages (agent.conversation id s).lastInput = .ok usage ∧
    agent.compact messages usage known.contextWindow = .ok done ∧
    prompt = Prompt.ofMessages done.messages

/-- How a first model call is prepared: what was found out on the way, and the state in which the
    compaction is counted. -/
theorem exists_of_prepare_eq_ok {agent : Agent σ} {id : String} {messages : List Message}
    {now : Moment} {turn : Running} {s s' : Agent.State σ}
    (h : prepare agent id messages now s = (.ok turn, s')) :
    ∃ known directory usage done sections,
      Model.resolve (modelOf agent (agent.conversation id s)) (some agent.provider) agent.endpoint
        s.directory = (.ok known, directory) ∧
      Budget.promptTokens messages (agent.conversation id s).lastInput = .ok usage ∧
      agent.compact messages usage known.contextWindow = .ok done ∧
      s' = Agent.State.remember id
        ((agent.conversation id s).countCompaction !done.report.entries.isEmpty)
        { s with directory } ∧
      Prompt.Instructions.sections (agent.conversation id s').systemPrompt messages.length usage
        known.contextWindow (agent.tools.definitions.map Tool.Definition.name) now
          = .ok sections ∧
      turn = {
        conversation := id
        model := modelOf agent (agent.conversation id s)
        contextWindow := known.contextWindow
        sections
        definitions := agent.tools.definitions
        report := done.report
        prompt := Prompt.ofMessages done.messages
        texts := []
        executed := []
        round := 0 } := by
  unfold prepare at h
  dsimp only at h
  split at h
  · cases h
  · next known directory hknown =>
      unfold prepareFor at h
      split at h
      · cases h
      · next usage husage =>
          unfold Agent.compactIn at h
          cases hdone : agent.compact messages usage known.contextWindow with
          | error fault =>
              rw [hdone] at h
              cases h
          | ok done =>
              rw [hdone] at h
              dsimp only at h
              split at h
              · cases h
              · next sections hsections =>
                  cases h
                  exact ⟨known, directory, usage, done, sections, hknown, husage, hdone, rfl,
                    hsections, rfl⟩

theorem prepare_eq_ok {agent : Agent σ} {id : String} {messages : List Message} {now : Moment}
    {turn : Running} {s s' : Agent.State σ}
    (h : prepare agent id messages now s = (.ok turn, s')) :
    turn.conversation = id ∧ turn.executed = [] ∧ s'.world = s.world ∧
      Opening agent id messages s turn.prompt := by
  obtain ⟨known, directory, usage, done, sections, hknown, husage, hdone, rfl, -, rfl⟩ :=
    exists_of_prepare_eq_ok h
  exact ⟨rfl, rfl, rfl, known, usage, done, congrArg Prod.fst hknown, husage, hdone, rfl⟩

/-- A turn that begins has prepared its first model call, and goes on with it if it may. -/
theorem exists_of_begin_eq_ok {agent : Agent σ} {id : String} {messages : List Message}
    {now : Moment} {progress : Progress} {s s' : Agent.State σ}
    (h : begin agent id messages now s = (.ok progress, s')) :
    ∃ first before,
      prepare agent id messages now { s with active := id :: s.active } = (.ok first, before) ∧
      progress = first.next agent.settings.maxToolRounds ∧
      settle id (.ok progress, before) = (.ok progress, s') := by
  unfold begin at h
  dsimp only at h
  split_ifs at h
  · cases h
  · cases hprepare : prepare agent id messages now { s with active := id :: s.active } with
    | mk prepared before =>
        rw [hprepare] at h
        have hprogress := (settle_eq_ok h).1
        cases prepared with
        | error fault => cases hprogress
        | ok first =>
            have hnext : progress = first.next agent.settings.maxToolRounds :=
              (Except.ok.inj hprogress).symm
            rw [hnext] at h ⊢
            exact ⟨first, before, rfl, rfl, h⟩

/-- A turn that begins with a model call sends the compacted conversation. -/
theorem begin_eq_calling {agent : Agent σ} {id : String} {messages : List Message} {now : Moment}
    {turn : Running} {s s' : Agent.State σ}
    (h : begin agent id messages now s = (.ok (.calling turn), s')) :
    s'.world = s.world ∧ Opening agent id messages s turn.prompt := by
  obtain ⟨first, before, hprepare, hnext, hsettled⟩ := exists_of_begin_eq_ok h
  cases settle_eq_calling hsettled
  obtain ⟨-, -, hfirst⟩ := prepare_eq_ok hprepare
  rwa [next_eq_calling hnext.symm]

/-! ## Whole turns -/

/-- The messages that the rounds after some replies put into a prompt. -/
def roundsOf (tools : Tool.Registry σ) : List Reply → Work.World σ → List Json
  | [], _ => []
  | reply :: rest, world =>
      roundMessages reply.content (runCalls tools reply.toolCalls world).1
        ++ roundsOf tools rest (runCalls tools reply.toolCalls world).2

/-- The tool calls of some replies, round by round, and whether they fail. -/
def attemptsOf (tools : Tool.Registry σ) : List Reply → Work.World σ → List (List (Requested × Bool))
  | [], _ => []
  | reply :: rest, world =>
      attempts tools reply.toolCalls world
        :: attemptsOf tools rest (runCalls tools reply.toolCalls world).2

/-- The messages of rounds come in pairs, also after results in them were cut. -/
theorem pairs_of_cut {tools : Tool.Registry σ} {given : List Reply} {world : Work.World σ}
    {prompt : List Json} (h : List.Forall₂ MessageCut (roundsOf tools given world) prompt) :
    ∃ pairs, prompt = pairs.flatMap (fun pair => [pair.1, pair.2]) ∧
      List.Forall₂ (fun attempted (pair : Json × Json) => Paired attempted pair.1 pair.2)
        (attemptsOf tools given world) pairs := by
  induction given generalizing world prompt with
  | nil =>
      cases h
      exact ⟨[], rfl, .nil⟩
  | cons reply rest ih =>
      cases h with
      | cons hask h =>
          cases h with
          | cons hanswer hrest =>
              obtain ⟨pairs, rfl, hpairs⟩ := ih hrest
              refine ⟨(_, _) :: pairs, rfl, .cons ?_ hpairs⟩
              rw [← runCalls_eq]
              exact paired_of_cut hask hanswer

theorem isSome_fields?_of_mem_entryOfBlocks {role : String} {blocks : List Json} {message : Json}
    (h : message ∈ Prompt.entryOfBlocks role blocks) : message.fields?.isSome = true := by
  unfold Prompt.entryOfBlocks at h
  split_ifs at h
  · exact absurd h (by simp)
  · rw [List.mem_singleton.1 h]
    rfl

theorem isSome_fields?_of_mem_ofMessages {messages : List Message} {message : Json}
    (h : message ∈ Prompt.ofMessages messages) : message.fields?.isSome = true := by
  obtain ⟨m, -, hm⟩ := List.mem_flatMap.1 h
  unfold Prompt.ofMessage at hm
  split_ifs at hm
  · rw [List.mem_singleton.1 hm]
    rfl
  · rcases List.mem_append.1 hm with hask | hanswer
    · exact isSome_fields?_of_mem_entryOfBlocks hask
    · exact isSome_fields?_of_mem_entryOfBlocks hanswer

theorem isSome_fields?_of_mem_roundsOf {tools : Tool.Registry σ} {given : List Reply} {world : Work.World σ}
    {message : Json} (h : message ∈ roundsOf tools given world) :
    message.fields?.isSome = true := by
  induction given generalizing world with
  | nil => exact absurd h (by simp [roundsOf])
  | cons reply rest ih =>
      simp only [roundsOf, roundMessages, List.cons_append, List.nil_append, List.mem_cons] at h
      rcases h with rfl | rfl | h
      · rfl
      · rfl
      · exact ih h

/-- A prompt of a turn holds nothing but objects, so it can be trimmed. -/
theorem isSome_fields?_of_cut {tools : Tool.Registry σ} {given : List Reply} {world : Work.World σ}
    {messages : List Message} {prompt : List Json}
    (h : List.Forall₂ MessageCut (Prompt.ofMessages messages ++ roundsOf tools given world)
      prompt) :
    ∀ message ∈ prompt, message.fields?.isSome = true := by
  intro message hmessage
  obtain ⟨original, horiginal, hcut⟩ := Pointwise.exists_of_mem h hmessage
  rcases List.mem_append.1 horiginal with hfront | hround
  · exact hcut.isSome_fields? (isSome_fields?_of_mem_ofMessages hfront)
  · exact hcut.isSome_fields? (isSome_fields?_of_mem_roundsOf hround)

@[simp] theorem finish_error (agent : Agent σ) (replies : List (Except String Reply))
    (fault : Fault) (s : Agent.State σ) :
    finish agent replies (.error fault, s) = ⟨.error fault, [], s⟩ := by
  cases replies <;> rfl

@[simp] theorem finish_finished (agent : Agent σ) (replies : List (Except String Reply))
    (outcome : Outcome) (s : Agent.State σ) :
    finish agent replies (.ok (.finished outcome), s) = ⟨.ok outcome, [], s⟩ := by
  cases replies <;> rfl

theorem calls_zero (agent : Agent σ) (replies : List (Except String Reply)) (turn : Running)
    (s : Agent.State σ) :
    (finish agent replies (.ok (.calling turn), s)).calls[0]? = some turn := by
  cases replies <;> rfl

/-- A model call but the first one comes after a reply with which the turn goes on. -/
theorem exists_reply_of_calls_succ {agent : Agent σ} {replies : List (Except String Reply)}
    {turn turn' : Running} {s : Agent.State σ} {k : Nat}
    (h : (finish agent replies (.ok (.calling turn), s)).calls[k + 1]? = some turn') :
    ∃ given rest next after, replies = .ok given :: rest ∧
      resume agent turn (.ok given) s = (.ok (.calling next), after) ∧
      (finish agent rest (.ok (.calling next), after)).calls[k]? = some turn' ∧
      (finish agent replies (.ok (.calling turn), s)).calls
        = turn :: (finish agent rest (.ok (.calling next), after)).calls := by
  cases replies with
  | nil => exact absurd h (by simp [finish])
  | cons reply rest =>
      simp only [finish, List.getElem?_cons_succ] at h
      cases hnext : resume agent turn reply s with
      | mk progress after =>
          rw [hnext] at h
          match progress with
          | .error fault => exact absurd h (by simp)
          | .ok (.finished outcome) => exact absurd h (by simp)
          | .ok (.calling next) =>
              obtain ⟨given, rfl, -⟩ := resume_eq_calling hnext
              refine ⟨given, rest, next, after, rfl, hnext, h, ?_⟩
              simp only [finish, hnext]

/-- At a model call the prompt is a cut of what it was at the first one and of everything that the
    rounds in between put into it. -/
theorem calls_cut {agent : Agent σ} {replies : List (Except String Reply)} {turn turn' : Running}
    {s : Agent.State σ} {front : List Json} {k : Nat}
    (hfront : List.Forall₂ MessageCut front turn.prompt)
    (h : (finish agent replies (.ok (.calling turn), s)).calls[k]? = some turn') :
    ∃ given, given.length = k ∧ replies.take k = given.map Except.ok ∧
      List.Forall₂ MessageCut (front ++ roundsOf agent.tools given s.world) turn'.prompt := by
  induction k generalizing replies turn s front with
  | zero =>
      rw [calls_zero, Option.some.injEq] at h
      refine ⟨[], rfl, rfl, ?_⟩
      rw [roundsOf, List.append_nil, ← h]
      exact hfront
  | succ k ih =>
      obtain ⟨given, rest, next, after, rfl, hnext, h, -⟩ := exists_reply_of_calls_succ h
      obtain ⟨_, hgiven, hworld, trimmed, htrim, hprompt⟩ := resume_eq_calling hnext
      cases hgiven
      -- what the rest of the turn starts from is the prompt with one more round
      have hround := List.rel_append hfront (cut_refl
        (roundMessages given.content (runCalls agent.tools given.toolCalls s.world).1))
      have hcut := Pointwise.trans MessageCut.trans hround (cut_of_trim htrim)
      rw [← hprompt] at hcut
      obtain ⟨later, hlength, htake, hlater⟩ := ih hcut h
      refine ⟨given :: later, by rw [List.length_cons, hlength],
        by rw [List.take_succ_cons, htake, List.map_cons], ?_⟩
      rw [roundsOf, ← hworld, ← List.append_assoc]
      exact hlater

/-- **Calls and results are paired at every model call of a turn.** Whatever the conversation, the
    replies and the tools are, the prompt of the call in some round is that of the compacted
    conversation, with a pair of messages for each round before: they ask for the calls of the reply
    of that round and answer each of them, with a mark on those that failed. In the first round this
    is the prompt as it was built, and later at most long contents of results were cut. Trimming a
    prompt of objects, such as these, always succeeds and cuts nothing else. -/
theorem run_paired (agent : Agent σ) (id : String) (messages : List Message) (now : Moment)
    (replies : List (Except String Reply)) (s : Agent.State σ) :
    (∀ k turn, (run agent id messages now replies s).calls[k]? = some turn →
      ∃ known usage done given front pairs,
        (Model.resolve (modelOf agent (agent.conversation id s)) (some agent.provider)
          agent.endpoint s.directory).1 = .ok known ∧
        Budget.promptTokens messages (agent.conversation id s).lastInput = .ok usage ∧
        agent.compact messages usage known.contextWindow = .ok done ∧
        replies.take k = given.map Except.ok ∧ given.length = k ∧
        turn.call.messages = front ++ pairs.flatMap (fun pair => [pair.1, pair.2]) ∧
        List.Forall₂ MessageCut (Prompt.ofMessages done.messages) front ∧
        (k = 0 → front = Prompt.ofMessages done.messages) ∧
        List.Forall₂ (fun attempted (pair : Json × Json) => Paired attempted pair.1 pair.2)
          (attemptsOf agent.tools given s.world) pairs ∧
        ∀ message ∈ turn.call.messages, message.fields?.isSome = true) ∧
    ∀ keep prompt, (∀ message ∈ prompt, message.fields?.isSome = true) →
      ∃ trimmed, trim keep prompt = .ok trimmed ∧
        List.Forall₂ MessageCut prompt trimmed.prompt := by
  refine ⟨fun k turn h => ?_, fun keep prompt hobjects => ?_⟩
  · unfold run at h
    cases hbegin : begin agent id messages now s with
    | mk progress after =>
        rw [hbegin] at h
        match progress with
        | .error fault => exact absurd h (by simp)
        | .ok (.finished outcome) => exact absurd h (by simp)
        | .ok (.calling first) =>
            obtain ⟨hworld, known, usage, done, hknown, husage, hdone, hprompt⟩ :=
              begin_eq_calling hbegin
            cases k with
            | zero =>
                -- nothing has been trimmed yet, so the prompt is the one that was built
                rw [calls_zero, Option.some.injEq] at h
                have hcall : turn.call.messages = Prompt.ofMessages done.messages := by
                  rw [← h, Running.call, hprompt]
                refine ⟨known, usage, done, [], Prompt.ofMessages done.messages, [], hknown, husage,
                  hdone, rfl, rfl, ?_, cut_refl _, fun _ => rfl, .nil, fun message hmessage => ?_⟩
                · rw [hcall, List.flatMap_nil, List.append_nil]
                · rw [hcall] at hmessage
                  exact isSome_fields?_of_mem_ofMessages hmessage
            | succ k =>
                obtain ⟨given, hlength, htake, hcut⟩ := calls_cut (cut_refl first.prompt) h
                rw [hprompt, hworld] at hcut
                obtain ⟨front, rest, hsplit, hfront, hrest⟩ := Pointwise.exists_append hcut
                obtain ⟨pairs, rfl, hpairs⟩ := pairs_of_cut hrest
                exact ⟨known, usage, done, given, front, pairs, hknown, husage, hdone, htake,
                  hlength, hsplit, hfront, fun hzero => absurd hzero (by simp), hpairs,
                  isSome_fields?_of_cut hcut⟩
  · obtain ⟨trimmed, htrim⟩ := trim_isOk keep hobjects
    exact ⟨trimmed, htrim, cut_of_trim htrim⟩

/-- An agent that keeps no tool results between rounds, with one tool that tells a long text. -/
def clerk : Agent Unit where
  settings := {
    appName := ""
    debug := false
    logLevel := ""
    defaultProvider := .anthropic
    defaultModel := ""
    anthropicApiKey := ""
    llmEndpoint := ""
    llmApiKey := ""
    awsRegion := ""
    maxTokens := 1
    temperature := .zero
    systemPrompt := ""
    maxToolRounds := 2
    compactionEnabled := true
    recentWindow := 1
    keptResults := 0
    modelCacheTtl := .zero }
  model := "m"
  provider := "anthropic"
  endpoint := none
  pipeline := Pipeline.standard
  tools := [("read", {
    name := "read"
    description := ""
    parameters := []
    handler := fun _ => .done (.ok ⟨true, String.ofList (List.replicate 201 'x'), none⟩) })]

/-- A call of the tool, and one of a tool that is not there. -/
def twoCalls : Reply := ⟨"", [⟨.string "a", "read", []⟩, ⟨.string "b", "write", []⟩], 0, 0⟩

/-- A turn of the agent, with one reply. -/
def clerkTurn : Record Unit :=
  run clerk "c" [⟨.string "user", .string "q", []⟩] ⟨2024, 1, 1, 0, 0, 0, .none⟩ [.ok twoCalls]
    (clerk.initial ⟨[], []⟩ ())

/-- The prompt of its second model call answers both calls, the second one as failed. -/
theorem run_paired_clerkTurn :
    (∃ turn front pairs, clerkTurn.calls[1]? = some turn ∧
      turn.call.messages = front ++ pairs.flatMap (fun pair => [pair.1, pair.2]) ∧
      List.Forall₂ (fun attempted (pair : Json × Json) => Paired attempted pair.1 pair.2)
        [[(⟨.string "a", "read", []⟩, false), (⟨.string "b", "write", []⟩, true)]] pairs) ∧
    (∀ message ∈ roundMessages "" [], message.fields?.isSome = true) ∧
    ∃ trimmed, trim 0 (roundMessages "" []) = .ok trimmed := by
  have hobjects : ∀ message ∈ roundMessages "" [], message.fields?.isSome = true := by
    decide +kernel
  obtain ⟨hcalls, htrim⟩ := run_paired clerk "c" [⟨.string "user", .string "q", []⟩]
    ⟨2024, 1, 1, 0, 0, 0, .none⟩ [.ok twoCalls] (clerk.initial ⟨[], []⟩ ())
  refine ⟨?_, hobjects, ?_⟩
  · have hlength : clerkTurn.calls.length = 2 := by decide +kernel
    obtain ⟨turn, hturn⟩ : ∃ turn, clerkTurn.calls[1]? = some turn :=
      ⟨_, List.getElem?_eq_getElem (by rw [hlength]; decide)⟩
    obtain ⟨_, _, _, given, front, pairs, _, _, _, htake, _, hprompt, _, _, hpairs, _⟩ :=
      hcalls 1 turn hturn
    have hgiven : given = [twoCalls] := by
      refine List.map_injective_iff.2 (fun _ _ => Except.ok.inj) (htake.symm.trans ?_)
      rfl
    have hattempts : attemptsOf clerk.tools [twoCalls] ⟨(), []⟩
        = [[(⟨.string "a", "read", []⟩, false), (⟨.string "b", "write", []⟩, true)]] := by
      decide +kernel
    rw [hgiven] at hpairs
    exact ⟨turn, front, pairs, hturn, hprompt, hattempts ▸ hpairs⟩
  · obtain ⟨trimmed, hok, -⟩ := htrim 0 _ hobjects
    exact ⟨trimmed, hok⟩

end Parley.Turn
