import Parley.Proofs.Turn.Step
set_option autoImplicit false

/-! # Fresh results

What a model call is shown of the round just before it. Results are counted one by one and not round
by round, so a result of that round can already be an old one: a long result gives way where the
same round brought enough results after it (`freshBlocks`). Every other result of the round is there
in full, and what else gives way was in the prompt of the model call before
(`run_shows_fresh`). -/

namespace Parley.Turn

open Provider Prompt.Rounds

variable {σ : Type}

/-- The block for a result with `later` results after it, right after its round. -/
def Done.freshBlock (keep : Int) (later : Nat) (d : Done) : Json :=
  if keptLength < d.result.content.length ∧ keep ≤ later then
    Prompt.toolResultBlock d.call.id (.string (placeholder d.result.content.length))
      (!d.result.success)
  else d.resultBlock

/-- The blocks for the results of a round, right after it. -/
def freshBlocks (keep : Int) : List Done → List Json
  | [] => []
  | d :: rest => d.freshBlock keep rest.length :: freshBlocks keep rest

@[simp] theorem isResult_resultBlock (d : Done) : isResult d.resultBlock = true :=
  isResult_toolResultBlock _ _ _

theorem resultCount_map_resultBlock (done : List Done) :
    resultCount (done.map Done.resultBlock) = done.length := by
  have hresults : ∀ block ∈ done.map Done.resultBlock, isResult block = true := by
    intro block hblock
    obtain ⟨d, -, rfl⟩ := List.mem_map.1 hblock
    exact isResult_resultBlock d
  rw [resultCount, List.countP_eq_length.2 hresults, List.length_map]

theorem shown_resultBlock (keep : Int) (later : Nat) (d : Done) :
    shown keep.toNat later d.resultBlock = d.freshBlock keep later := by
  have htext : resultText? d.resultBlock = some d.result.content :=
    resultText?_toolResultBlock _ _ _
  by_cases hlong : keptLength < d.result.content.length ∧ keep ≤ later
  · have hgives : longText? keep.toNat later d.resultBlock = some d.result.content :=
      longText?_eq_some_iff.2 ⟨Int.toNat_le.2 hlong.2, htext, hlong.1⟩
    rw [shown, hgives, Done.freshBlock, if_pos hlong, Done.resultBlock]
    exact withText_toolResultBlock _ _ _ _
  · have hkept : longText? keep.toNat later d.resultBlock = none := by
      refine Option.eq_none_iff_forall_ne_some.2 fun text hgives => hlong ?_
      obtain ⟨hkeep, hown, hlength⟩ := longText?_eq_some_iff.1 hgives
      rw [htext, Option.some.injEq] at hown
      exact ⟨hown ▸ hlength, Int.toNat_le.1 hkeep⟩
    rw [shown, hkept, Done.freshBlock, if_neg hlong]

theorem trimmedBlocks_resultBlocks (keep : Int) (done : List Done) :
    trimmedBlocks keep.toNat 0 (done.map Done.resultBlock) = freshBlocks keep done := by
  induction done with
  | nil => rfl
  | cons d rest ih =>
      rw [List.map_cons, trimmedBlocks, resultCount_map_resultBlock, Nat.zero_add,
        shown_resultBlock, ih, freshBlocks]

/-- The messages of a round, right after it. -/
theorem trimmedPrompt_roundMessages (keep : Int) (content : String) (done : List Done) :
    trimmedPrompt keep.toNat 0 (roundMessages content done)
      = [replyMessage content done, Prompt.entry "user" (.array (freshBlocks keep done))] := by
  have hreply : ∀ later, trimmedMessage keep.toNat later (replyMessage content done)
      = replyMessage content done := by
    intro later
    rw [trimmedMessage, replyMessage, blocks?_entry_assistant]
  have hresult : trimmedMessage keep.toNat 0 (resultMessage done)
      = Prompt.entry "user" (.array (freshBlocks keep done)) := by
    rw [trimmedMessage, resultMessage, blocks?_entry_user]
    simp only [withBlocks_entry, trimmedBlocks_resultBlocks]
  rw [roundMessages, trimmedPrompt, trimmedPrompt, trimmedPrompt, hreply]
  exact congrArg (fun last => [replyMessage content done, last]) hresult

/-- A model call after a reply: the prompt of the call before it, of which some results gave way,
    and the round of the reply. -/
theorem exists_front_of_resume {agent : Agent σ} {turn turn' : Running} {reply : Reply}
    {s s' : Agent.State σ} (h : resume agent turn (.ok reply) s = (.ok (.calling turn'), s')) :
    ∃ front, List.Forall₂ MessageCut turn.prompt front ∧
      turn'.prompt = front ++
        [replyMessage reply.content (runCalls agent.tools reply.toolCalls s.world).1,
          Prompt.entry "user" (.array (freshBlocks agent.settings.keptResults
            (runCalls agent.tools reply.toolCalls s.world).1))] := by
  obtain ⟨given, hgiven, -, trimmed, htrim, hprompt⟩ := resume_eq_calling h
  cases hgiven
  rw [hprompt, eq_of_trim_eq_ok htrim, trimmedPrompt_append, trimmedPrompt_roundMessages]
  exact ⟨_, trimmedPrompt_cut _ _ turn.prompt, rfl⟩

/-- **Fresh results give way only to enough newer ones of their own round.** The prompt of a model
    call after a reply is the prompt of the call before it, in which results may have given way, and
    the two messages of the round of that reply. The result of each call of the round stands there
    in full, unless it is long and at least as many calls of the same round come after it as results
    are kept. -/
theorem run_shows_fresh (agent : Agent σ) (id : String) (messages : List Message) (now : Moment)
    (replies : List (Except String Reply)) (s : Agent.State σ) (k : Nat) (turn' : Running)
    (h : (run agent id messages now replies s).calls[k + 1]? = some turn') :
    ∃ turn given reply front,
      (run agent id messages now replies s).calls[k]? = some turn ∧
      replies.take (k + 1) = (given ++ [reply]).map Except.ok ∧ given.length = k ∧
      List.Forall₂ MessageCut turn.call.messages front ∧
      let done := (runCalls agent.tools reply.toolCalls (worldAfter agent.tools given s.world)).1
      done.map Done.call = reply.toolCalls ∧
      turn'.call.messages = front ++ [replyMessage reply.content done,
        Prompt.entry "user" (.array (freshBlocks agent.settings.keptResults done))] := by
  unfold run at h ⊢
  cases hbegin : begin agent id messages now s with
  | mk progress after =>
      rw [hbegin] at h
      match progress with
      | .error fault => exact absurd h (by simp)
      | .ok (.finished outcome) => exact absurd h (by simp)
      | .ok (.calling first) =>
          obtain ⟨hworld, -⟩ := begin_eq_calling hbegin
          obtain ⟨turn, reply, given, before, later, hturn, htake, hlength, hbefore, hresume⟩ :=
            exists_of_calls_succ h
          obtain ⟨front, hfront, hprompt⟩ := exists_front_of_resume hresume
          rw [hbefore, hworld] at hprompt
          exact ⟨turn, given, reply, front, hturn, htake, hlength, hfront, map_call_runCalls _ _ _,
            hprompt⟩

/-! ## A round with more long results than are kept -/

/-- A text of some length. -/
def longText (length : Nat) : String := String.ofList (List.replicate length 'x')

theorem length_longText (length : Nat) : (longText length).length = length := by
  rw [longText, String.length_ofList, List.length_replicate]

/-- The clerk, with one result kept between rounds. -/
def scribe : Agent Unit :=
  { clerk with settings := { clerk.settings with keptResults := 1 } }

/-- A reply that calls the tool twice. -/
def twoReads : Reply := ⟨"", [⟨.string "a", "read", []⟩, ⟨.string "b", "read", []⟩], 0, 0⟩

/-- A turn of the agent, with that reply. -/
def scribeTurn : Record Unit :=
  run scribe "c" [⟨.string "user", .string "q", []⟩] ⟨2024, 1, 1, 0, 0, 0, .none⟩ [.ok twoReads]
    (scribe.initial ⟨[], []⟩ ())

/-- The first call of the reply, as it is run. -/
def firstRead : Done := ⟨⟨.string "a", "read", []⟩, ⟨true, longText 201, none⟩⟩

/-- The second call of the reply, as it is run. -/
def secondRead : Done := ⟨⟨.string "b", "read", []⟩, ⟨true, longText 201, none⟩⟩

theorem runCalls_twoReads (world : Work.World Unit) :
    (runCalls scribe.tools twoReads.toolCalls world).1 = [firstRead, secondRead] := by
  have hprompt : ∀ work ∈ twoReads.toolCalls.map (workOf scribe.tools), work.Prompt := by
    simp only [twoReads, List.map_cons, List.map_nil, List.forall_mem_cons]
    exact ⟨fun _ => rfl, fun _ => rfl, nofun⟩
  rw [runCalls, Work.gather_of_prompt hprompt (List.cons_ne_nil _ _)]
  rfl

theorem freshBlocks_twoReads :
    freshBlocks 1 [firstRead, secondRead]
      = [Prompt.toolResultBlock (.string "a") (.string (placeholder 201)) false,
          secondRead.resultBlock] := by
  have hfirst : firstRead.result.content.length = 201 := length_longText 201
  have hlong : keptLength < firstRead.result.content.length ∧ (1 : Int) ≤ (1 : Nat) := by
    rw [hfirst]
    decide
  have hkept : ¬ (keptLength < secondRead.result.content.length ∧ (1 : Int) ≤ (0 : Nat)) :=
    fun h => absurd h.2 (by decide)
  rw [freshBlocks, freshBlocks, freshBlocks, List.length_singleton, List.length_nil,
    Done.freshBlock, if_pos hlong, Done.freshBlock, if_neg hkept, hfirst]
  rfl

/-- The model call that a turn has come to, and the state that it is made in. -/
def calling? : Except Fault Progress × Agent.State σ → Option (Running × Agent.State σ)
  | (.ok (.calling turn), s) => some (turn, s)
  | _ => none

theorem eq_of_calling? {result : Except Fault Progress × Agent.State σ}
    {call : Running × Agent.State σ} (h : calling? result = some call) :
    result = (.ok (.calling call.1), call.2) := by
  rcases result with ⟨fault | (turn | outcome), s⟩
  · cases h
  · cases h
    rfl
  · cases h

/-- The turn makes a first model call with the question, and goes on after the reply. -/
theorem scribeTurn_begins :
    ∃ first s, begin scribe "c" [⟨.string "user", .string "q", []⟩] ⟨2024, 1, 1, 0, 0, 0, .none⟩
        (scribe.initial ⟨[], []⟩ ()) = (.ok (.calling first), s) ∧
      first.prompt = [Prompt.entry "user" (.string (Prompt.userText (.string "q")))] ∧
      first.round = 1 ∧
      (record first twoReads (scribe.conversation first.conversation s)).1 = .ok () := by
  have hcheck : (calling? (begin scribe "c" [⟨.string "user", .string "q", []⟩]
        ⟨2024, 1, 1, 0, 0, 0, .none⟩ (scribe.initial ⟨[], []⟩ ()))).any (fun call => decide (
          call.1.prompt = [Prompt.entry "user" (.string (Prompt.userText (.string "q")))] ∧
          call.1.round = 1 ∧
          (record call.1 twoReads (scribe.conversation call.1.conversation call.2)).1.isOk = true))
      = true := by decide +kernel
  obtain ⟨⟨first, s⟩, hcalling, hchecked⟩ := (Option.any_eq_true _ _).1 hcheck
  obtain ⟨hprompt, hround, hrecord⟩ := of_decide_eq_true hchecked
  refine ⟨first, s, eq_of_calling? hcalling, hprompt, hround, ?_⟩
  dsimp only at hrecord
  cases h : (record first twoReads (scribe.conversation first.conversation s)).1 with
  | error fault =>
      rw [h] at hrecord
      cases hrecord
  | ok _ => rfl

/-- The second model call of the turn, after the first one. -/
theorem scribeTurn_resumes :
    ∃ first s turn after,
      first.prompt = [Prompt.entry "user" (.string (Prompt.userText (.string "q")))] ∧
      resume scribe first (.ok twoReads) s = (.ok (.calling turn), after) ∧
      scribeTurn.calls[1]? = some turn := by
  obtain ⟨first, s, hbegin, hprompt, hround, hrecord⟩ := scribeTurn_begins
  have hmore : first.round < scribe.settings.maxToolRounds := by
    rw [hround]
    decide
  obtain ⟨turn, after, hresume, hturn⟩ :=
    exists_second_call hbegin hrecord (by decide) hmore []
  exact ⟨first, s, turn, after, hprompt, hresume, hturn⟩

/-- One result is kept, and the second model call gets the placeholder for the first of two long
    results of the round before. -/
theorem run_shows_fresh_scribeTurn :
    ∃ turn front, scribeTurn.calls[1]? = some turn ∧
      turn.call.messages = front ++ [replyMessage "" [firstRead, secondRead],
        Prompt.entry "user" (.array [
          Prompt.toolResultBlock (.string "a") (.string (placeholder 201)) false,
          secondRead.resultBlock])] := by
  obtain ⟨_, _, turn, _, -, -, hturn⟩ := scribeTurn_resumes
  obtain ⟨_, given, reply, front, -, htake, hlength, -, -, hprompt⟩ :=
    run_shows_fresh scribe "c" [⟨.string "user", .string "q", []⟩] ⟨2024, 1, 1, 0, 0, 0, .none⟩
      [.ok twoReads] (scribe.initial ⟨[], []⟩ ()) 0 turn hturn
  obtain rfl := List.length_eq_zero_iff.1 hlength
  obtain rfl : reply = twoReads := by
    simpa using htake.symm
  refine ⟨turn, front, hturn, ?_⟩
  rw [← freshBlocks_twoReads, ← runCalls_twoReads ⟨(), []⟩]
  exact hprompt

/-! What stands nowhere in that prompt is the complete result of the first call. -/

@[simp] theorem blocksOf_entry_array (role : String) (blocks : List Json) :
    blocksOf (Prompt.entry role (.array blocks)) = blocks := by
  simp [blocksOf, Prompt.entry, Json.field?, Ordered.find?, Json.items?]

@[simp] theorem blocksOf_entry_string (role text : String) :
    blocksOf (Prompt.entry role (.string text)) = [] := by
  simp [blocksOf, Prompt.entry, Json.field?, Ordered.find?, Json.items?]

/-- A message whose content is a text stays as it is. -/
theorem eq_of_cut_entry_string {role text : String} {message : Json}
    (h : MessageCut (Prompt.entry role (.string text)) message) :
    message = Prompt.entry role (.string text) := by
  cases h with
  | same => rfl
  | cut hblocks _ =>
      have hnone : blocks? (Prompt.entry role (.string text)) = none := by
        simp [blocks?, Prompt.entry, Json.field?, Ordered.find?, Json.items?]
      rw [hnone] at hblocks
      exact absurd hblocks (by simp)

theorem resultBlock_notMem_replyMessage (d : Done) (content : String) (done : List Done) :
    d.resultBlock ∉ blocksOf (replyMessage content done) := by
  intro h
  rw [replyMessage, blocksOf_entry_array] at h
  have htype : isResult d.resultBlock = true := isResult_resultBlock d
  rcases List.mem_append.1 h with htext | huse
  · split_ifs at htext
    · exact absurd htext (by simp)
    · rw [List.mem_singleton.1 htext] at htype
      exact absurd htype (by simp [isResult, Prompt.textBlock, Json.field?, Ordered.find?])
  · obtain ⟨other, -, hother⟩ := List.mem_map.1 huse
    rw [← hother] at htype
    exact absurd htype
      (by simp [isResult, Done.useBlock, Prompt.toolUseBlock, Json.field?, Ordered.find?])

theorem placeholder_ne {text : String} (hlong : keptLength < text.length)
    (hsize : text.length < 2 ^ 63) : placeholder text.length ≠ text := by
  intro h
  have hle := length_placeholder_le hsize
  rw [h] at hle
  omega

theorem firstRead_notMem_freshBlocks :
    firstRead.resultBlock ∉ freshBlocks 1 [firstRead, secondRead] := by
  have hlength := length_longText 201
  have hne : placeholder (longText 201).length ≠ longText 201 :=
    placeholder_ne (by rw [hlength]; decide) (by rw [hlength]; decide)
  rw [hlength] at hne
  intro h
  rw [freshBlocks_twoReads] at h
  rcases List.mem_pair.1 h with hfirst | hsecond
  · simp only [Done.resultBlock, firstRead, Prompt.toolResultBlock, Json.object.injEq,
      List.cons.injEq, Prod.mk.injEq, Json.string.injEq] at hfirst
    exact hne hfirst.2.2.1.2.symm
  · simp only [Done.resultBlock, firstRead, secondRead, Prompt.toolResultBlock, Json.object.injEq,
      List.cons.injEq, Prod.mk.injEq, Json.string.injEq] at hsecond
    exact absurd hsecond.2.1.2 (by decide)

/-- Keeping a result is not enough for each fresh result to be seen in full: in the second model
    call of the turn there is no block with the complete result of the first call. -/
theorem scribeTurn_hides_fresh :
    1 ≤ scribe.settings.keptResults ∧
    ∃ turn, scribeTurn.calls[1]? = some turn ∧
      ∃ d ∈ (runCalls scribe.tools twoReads.toolCalls ⟨(), []⟩).1,
        ∀ message ∈ turn.call.messages, d.resultBlock ∉ blocksOf message := by
  obtain ⟨first, s, turn, after, hfirst, hresume, hturn⟩ := scribeTurn_resumes
  obtain ⟨front, hfront, hprompt⟩ := exists_front_of_resume hresume
  rw [runCalls_twoReads] at hprompt
  refine ⟨by decide, turn, hturn, firstRead, ?_, fun message hmessage => ?_⟩
  · rw [runCalls_twoReads]
    exact List.mem_cons_self
  · rw [Running.call, hprompt] at hmessage
    rcases List.mem_append.1 hmessage with hold | hnew
    · obtain ⟨original, horiginal, hcut⟩ := Pointwise.exists_of_mem hfront hold
      rw [hfirst, List.mem_singleton] at horiginal
      rw [horiginal] at hcut
      rw [eq_of_cut_entry_string hcut, blocksOf_entry_string]
      exact List.not_mem_nil
    · rcases List.mem_pair.1 hnew with rfl | rfl
      · exact resultBlock_notMem_replyMessage _ _ _
      · rw [blocksOf_entry_array]
        exact firstRead_notMem_freshBlocks

end Parley.Turn
