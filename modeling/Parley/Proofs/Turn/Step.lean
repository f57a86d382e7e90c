import Parley.Proofs.Prompt.Trimming
import Parley.Proofs.Turn.Pairing
set_option autoImplicit false

/-! # From one model call to the next

What a reply with tool calls makes of a turn whose prompt holds objects only (`afterRound`): the
calls are run, their results go into the prompt and into the list of executed calls, and the prompt
is trimmed. Such a prompt can always be trimmed and is one of objects again, so a round never fails
(`runRound_eq`), and with any reply nothing can fail but its count (`takeReply_eq`). A turn that
begins has such a prompt and has run no tools (`begin_eq_ok`). Two model calls of a run that follow
each other are one such step apart (`exists_of_calls_succ`). -/

namespace Parley.Turn

open Provider Prompt.Rounds

variable {σ : Type}

/-! ## Calls that are run -/

theorem map_call_runCalls (tools : Tool.Registry σ) (calls : List Requested)
    (world : Work.World σ) : (runCalls tools calls world).1.map Done.call = calls := by
  unfold runCalls
  rw [List.map_zipWith]
  refine List.ext_getElem ?_ ?_
  · simp [Work.length_gather]
  · simp

@[simp] theorem runCalls_nil (tools : Tool.Registry σ) (world : Work.World σ) :
    runCalls tools [] world = ([], world) := by
  simp [runCalls]

/-- The world after the tool calls of some replies. -/
def worldAfter (tools : Tool.Registry σ) : List Reply → Work.World σ → Work.World σ
  | [], world => world
  | reply :: rest, world => worldAfter tools rest (runCalls tools reply.toolCalls world).2

theorem isSome_fields?_of_mem_roundMessages {content : String} {done : List Done} {message : Json}
    (h : message ∈ roundMessages content done) : message.fields?.isSome = true := by
  simp only [roundMessages, List.mem_cons, List.not_mem_nil, or_false] at h
  rcases h with rfl | rfl
  · rfl
  · rfl

theorem isSome_fields?_append_roundMessages {prompt : List Json}
    (h : ∀ message ∈ prompt, message.fields?.isSome = true) (content : String) (done : List Done) :
    ∀ message ∈ prompt ++ roundMessages content done, message.fields?.isSome = true := by
  intro message hmessage
  rcases List.mem_append.1 hmessage with hold | hround
  · exact h message hold
  · exact isSome_fields?_of_mem_roundMessages hround

/-- The prompt after a round. -/
def promptAfter (keep : Int) (prompt : List Json) (content : String) (done : List Done) :
    List Json :=
  trimmedPrompt keep.toNat 0 (prompt ++ roundMessages content done)

theorem isSome_fields?_promptAfter (keep : Int) {prompt : List Json}
    (h : ∀ message ∈ prompt, message.fields?.isSome = true) (content : String) (done : List Done) :
    ∀ message ∈ promptAfter keep prompt content done, message.fields?.isSome = true :=
  isSome_fields?_trimmedPrompt _ _ (isSome_fields?_append_roundMessages h content done)

/-! ## The beginning -/

/-- The tool calls that were run, once a turn has come some way. -/
def Progress.executed : Progress → List ToolCall
  | .calling turn => turn.executed
  | .finished outcome => outcome.toolCalls

theorem executed_next (turn : Running) (maxRounds : Int) :
    (turn.next maxRounds).executed = turn.executed := by
  unfold Running.next
  split_ifs
  · rfl
  · rfl

/-- A turn that begins has run no tools. Its first model call is one of its conversation, with a
    prompt of objects. -/
theorem begin_eq_ok {agent : Agent σ} {id : String} {messages : List Message} {now : Moment}
    {progress : Progress} {s s' : Agent.State σ}
    (h : begin agent id messages now s = (.ok progress, s')) :
    progress.executed = [] ∧ s'.world = s.world ∧ ∀ turn, progress = .calling turn →
      turn.conversation = id ∧ ∀ message ∈ turn.prompt, message.fields?.isSome = true := by
  obtain ⟨first, before, hprepare, rfl, hsettled⟩ := exists_of_begin_eq_ok h
  obtain ⟨hid, hexecuted, hworld, known, usage, done, -, -, -, hprompt⟩ := prepare_eq_ok hprepare
  refine ⟨(executed_next _ _).trans hexecuted, (settle_eq_ok hsettled).2.trans hworld, ?_⟩
  intro turn hnext
  unfold Running.next at hnext
  split_ifs at hnext
  cases hnext
  refine ⟨hid, ?_⟩
  intro message hmessage
  have hopening : message ∈ first.prompt := hmessage
  rw [hprompt] at hopening
  exact isSome_fields?_of_mem_ofMessages hopening

/-! ## One round -/

/-- A turn after the round of a reply, in a world. -/
def afterRound (agent : Agent σ) (turn : Running) (reply : Reply) (world : Work.World σ) :
    Running :=
  let done := (runCalls agent.tools reply.toolCalls world).1
  { turn with
    prompt := promptAfter agent.settings.keptResults turn.prompt reply.content done
    executed := turn.executed ++ done.map Done.toToolCall }

theorem runRound_eq (agent : Agent σ) {turn : Running} (reply : Reply) (s : Agent.State σ)
    (h : ∀ message ∈ turn.prompt, message.fields?.isSome = true) :
    runRound agent turn reply s
      = (.ok ((afterRound agent turn reply s.world).next agent.settings.maxToolRounds),
          { s with world := (runCalls agent.tools reply.toolCalls s.world).2 }) := by
  unfold runRound
  cases hrun : runCalls agent.tools reply.toolCalls s.world with
  | mk done world =>
      have htrim := trim_eq_ok agent.settings.keptResults
        (isSome_fields?_append_roundMessages h reply.content done)
      simp only [htrim, afterRound, hrun, promptAfter]

/-- A turn with the text of a reply. -/
def spoken (turn : Running) (reply : Reply) : Running :=
  { turn with texts := addText reply.content turn.texts }

/-- How far a turn has come after a reply that was counted, in a world. -/
def advance (agent : Agent σ) (turn : Running) (reply : Reply) (world : Work.World σ) :
    Progress :=
  if reply.toolCalls.isEmpty then .finished ((spoken turn reply).outcome .endTurn none)
  else (afterRound agent (spoken turn reply) reply world).next agent.settings.maxToolRounds

/-- What a turn does with a reply: it is counted, and nothing else can fail. -/
theorem takeReply_eq (agent : Agent σ) {turn : Running} (reply : Reply) (s : Agent.State σ)
    (h : ∀ message ∈ turn.prompt, message.fields?.isSome = true) :
    takeReply agent turn reply s
      = match record turn reply (agent.conversation turn.conversation s) with
        | (.error fault, c) => (.error fault, s.remember turn.conversation c)
        | (.ok (), c) => (.ok (advance agent turn reply s.world),
            { s.remember turn.conversation c with
              world := (runCalls agent.tools reply.toolCalls s.world).2 }) := by
  unfold takeReply advance
  cases hrecord : record turn reply (agent.conversation turn.conversation s) with
  | mk recorded c =>
      cases recorded with
      | error fault => simp only [hrecord]
      | ok _ =>
          simp only [hrecord]
          by_cases hcalls : reply.toolCalls = []
          · simp only [hcalls, List.isEmpty_nil, if_pos, runCalls_nil]
            rfl
          · have hsome : ¬ reply.toolCalls.isEmpty = true := by
              rwa [List.isEmpty_iff]
            simp only [if_neg hsome]
            exact @runRound_eq σ agent (spoken turn reply) reply _ h

/-- A turn that goes on after a reply is one of the same conversation, with a prompt of objects. -/
theorem calling_of_advance {agent : Agent σ} {turn turn' : Running} {reply : Reply}
    {world : Work.World σ}
    (hobjects : ∀ message ∈ turn.prompt, message.fields?.isSome = true)
    (h : advance agent turn reply world = .calling turn') :
    (∀ message ∈ turn'.prompt, message.fields?.isSome = true) ∧
      turn'.conversation = turn.conversation := by
  unfold advance at h
  split_ifs at h
  unfold Running.next at h
  split_ifs at h
  cases h
  exact ⟨isSome_fields?_promptAfter _ hobjects _ _, rfl⟩

theorem next_of_lt {turn : Running} {maxRounds : Int} (h : turn.round < maxRounds) :
    turn.next maxRounds = .calling { turn with round := turn.round + 1 } :=
  if_pos h

/-- A reply with tool calls leads to another model call, while there may be one. -/
theorem resume_isCalling {agent : Agent σ} {turn : Running} {reply : Reply} {s : Agent.State σ}
    (hobjects : ∀ message ∈ turn.prompt, message.fields?.isSome = true)
    (hrecord : (record turn reply (agent.conversation turn.conversation s)).1 = .ok ())
    (hcalls : reply.toolCalls ≠ []) (hround : turn.round < agent.settings.maxToolRounds) :
    ∃ turn' s', resume agent turn (.ok reply) s = (.ok (.calling turn'), s') := by
  have hsome : ¬ reply.toolCalls.isEmpty = true := by
    rwa [List.isEmpty_iff]
  have hmore : (afterRound agent (spoken turn reply) reply s.world).round
      < agent.settings.maxToolRounds := hround
  have htake := takeReply_eq agent reply s hobjects
  cases hrecorded : record turn reply (agent.conversation turn.conversation s) with
  | mk recorded c =>
      rw [hrecorded] at hrecord htake
      cases hrecord
      rw [advance, if_neg hsome, next_of_lt hmore] at htake
      rw [resume, htake]
      exact ⟨_, _, rfl⟩

/-! ## Model calls that follow each other -/

/-- Two model calls that follow each other are one reply apart. -/
theorem exists_of_calls_succ {agent : Agent σ} {replies : List (Except String Reply)}
    {first turn' : Running} {s : Agent.State σ} {k : Nat}
    (h : (finish agent replies (.ok (.calling first), s)).calls[k + 1]? = some turn') :
    ∃ turn reply given before after,
      (finish agent replies (.ok (.calling first), s)).calls[k]? = some turn ∧
      replies.take (k + 1) = (given ++ [reply]).map Except.ok ∧ given.length = k ∧
      before.world = worldAfter agent.tools given s.world ∧
      resume agent turn (.ok reply) before = (.ok (.calling turn'), after) := by
  induction k generalizing replies first s with
  | zero =>
      obtain ⟨given, rest, next, after, rfl, hnext, hcalls, hfirst⟩ := exists_reply_of_calls_succ h
      rw [calls_zero, Option.some.injEq] at hcalls
      refine ⟨first, given, [], s, after, ?_, rfl, rfl, rfl, hcalls ▸ hnext⟩
      exact calls_zero _ _ _ _
  | succ k ih =>
      -- the two calls are found in what follows the first reply, which is one more that was given
      obtain ⟨own, rest, next, after, rfl, hnext, hcalls, hfirst⟩ := exists_reply_of_calls_succ h
      obtain ⟨_, hgiven, hworld, -⟩ := resume_eq_calling hnext
      cases hgiven
      obtain ⟨turn, reply, given, before, later, hturn, htake, hlength, hbefore, hresume⟩ :=
        ih hcalls
      refine ⟨turn, reply, own :: given, before, later, ?_, ?_, ?_, ?_, hresume⟩
      · rw [hfirst, List.getElem?_cons_succ, hturn]
      · rw [List.take_succ_cons, htake, List.cons_append, List.map_cons]
      · rw [List.length_cons, hlength]
      · rw [worldAfter, ← hworld, hbefore]

/-- A turn whose first reply asks for tool calls makes a second model call, if it may. -/
theorem exists_second_call {agent : Agent σ} {id : String} {messages : List Message} {now : Moment}
    {reply : Reply} {s s' : Agent.State σ} {first : Running}
    (hbegin : begin agent id messages now s = (.ok (.calling first), s'))
    (hrecord : (record first reply (agent.conversation first.conversation s')).1 = .ok ())
    (hcalls : reply.toolCalls ≠ []) (hround : first.round < agent.settings.maxToolRounds)
    (rest : List (Except String Reply)) :
    ∃ turn after, resume agent first (.ok reply) s' = (.ok (.calling turn), after) ∧
      (run agent id messages now (.ok reply :: rest) s).calls[1]? = some turn := by
  obtain ⟨-, -, hfirst⟩ := begin_eq_ok hbegin
  obtain ⟨-, hobjects⟩ := hfirst first rfl
  obtain ⟨turn, after, hresume⟩ := resume_isCalling hobjects hrecord hcalls hround
  refine ⟨turn, after, hresume, ?_⟩
  rw [run, hbegin, finish, hresume, List.getElem?_cons_succ, calls_zero]

end Parley.Turn
