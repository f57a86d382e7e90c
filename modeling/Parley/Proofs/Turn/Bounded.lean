import Parley.Proofs.Prompt.Replay
import Parley.Proofs.Prompt.Results
import Parley.Proofs.Turn.Fresh
set_option autoImplicit false

/-! # Old results are short

The prompt of every model call but the first is what one trimming leaves of all that was ever put
into it: the compacted conversation and the rounds so far (`calls_trimmed`). Each round trims what
the rounds before it left, but trimming again is trimming once. So the results of the prompt stand in
the order in which they came in, those of earlier turns before those of this turn, and all but the
newest ones are short (`run_bounded`). -/

namespace Parley.Turn

open Provider Prompt.Rounds

variable {σ : Type}

/-! ## Where the results of a prompt are -/

/-- The result blocks of a prompt, in the order of its messages and of the blocks in each. -/
def resultsOf (prompt : List Json) : List Json :=
  (prompt.flatMap blocksOf).filter isResult

/-- A message that trimming passes over holds no results. -/
def Tidy (message : Json) : Prop :=
  blocks? message = none → (blocksOf message).filter isResult = []

theorem blocksOf_of_blocks? {message : Json} {blocks : List Json}
    (h : blocks? message = some blocks) : blocksOf message = blocks := by
  obtain ⟨fields, rfl, -, hcontent⟩ := blocks?_eq_some h
  show ((Ordered.find? "content" fields).bind Json.items?).getD [] = blocks
  rw [hcontent]
  rfl

theorem Tidy.filter_blocksOf {message : Json} (h : Tidy message) :
    (blocksOf message).filter isResult = (blocksIn message).filter isResult := by
  unfold blocksIn
  cases hblocks : blocks? message with
  | none => rw [h hblocks, Option.getD_none, List.filter_nil]
  | some blocks => rw [blocksOf_of_blocks? hblocks, Option.getD_some]

/-- In a prompt of tidy messages, trimming sees all results. -/
theorem resultsOf_eq {prompt : List Json} (h : ∀ message ∈ prompt, Tidy message) :
    resultsOf prompt = results prompt := by
  unfold resultsOf results
  rw [List.filter_flatMap, List.filter_flatMap]
  exact List.flatMap_congr fun message hmessage => (h message hmessage).filter_blocksOf

theorem tidy_entry_user (content : Json) : Tidy (Prompt.entry "user" content) := by
  intro hnone
  have hitems : content.items? = none := by
    simpa [blocks?, Prompt.entry, Json.field?, Ordered.find?] using hnone
  simp [blocksOf, Prompt.entry, Json.field?, Ordered.find?, hitems]

theorem tidy_entry_blocks (role : String) {blocks : List Json}
    (h : ∀ block ∈ blocks, isResult block = false) :
    Tidy (Prompt.entry role (.array blocks)) := by
  intro _
  rw [blocksOf_entry_array, List.filter_eq_nil_iff]
  intro block hblock
  rw [h block hblock]
  exact Bool.false_ne_true

theorem isResult_textBlock (text : Json) : isResult (Prompt.textBlock text) = false := by
  simp [isResult, Prompt.textBlock, Json.field?, Ordered.find?]

theorem isResult_toolUseBlock (id name input : Json) :
    isResult (Prompt.toolUseBlock id name input) = false := by
  simp [isResult, Prompt.toolUseBlock, Json.field?, Ordered.find?]

theorem tidy_of_mem_entryOfBlocks {role : String} {blocks : List Json} {message : Json}
    (htidy : Tidy (Prompt.entry role (.array blocks)))
    (h : message ∈ Prompt.entryOfBlocks role blocks) : Tidy message := by
  unfold Prompt.entryOfBlocks at h
  split_ifs at h
  · cases h
  · rwa [List.mem_singleton.1 h]

theorem tidy_of_mem_ofMessages {messages : List Message} {message : Json}
    (h : message ∈ Prompt.ofMessages messages) : Tidy message := by
  obtain ⟨m, -, hm⟩ := List.mem_flatMap.1 h
  unfold Prompt.ofMessage at hm
  split_ifs at hm
  · rw [List.mem_singleton.1 hm]
    exact tidy_entry_user _
  · rcases List.mem_append.1 hm with hassistant | hresults
    · refine tidy_of_mem_entryOfBlocks (tidy_entry_blocks _ ?_) hassistant
      intro block hblock
      rcases List.mem_append.1 hblock with htext | huse
      · split_ifs at htext
        · rw [List.mem_singleton.1 htext]
          exact isResult_textBlock _
        · cases htext
      · obtain ⟨call, -, rfl⟩ := List.mem_map.1 huse
        exact isResult_toolUseBlock _ _ _
    · exact tidy_of_mem_entryOfBlocks (tidy_entry_user _) hresults

theorem tidy_of_mem_roundsOf {tools : Tool.Registry σ} {given : List Reply} {world : Work.World σ}
    {message : Json} (h : message ∈ roundsOf tools given world) : Tidy message := by
  induction given generalizing world with
  | nil => cases h
  | cons reply rest ih =>
      rcases List.mem_append.1 h with hround | hrest
      · rcases List.mem_pair.1 hround with rfl | rfl
        · refine tidy_entry_blocks _ ?_
          intro block hblock
          rcases List.mem_append.1 hblock with htext | huse
          · split_ifs at htext
            · cases htext
            · rw [List.mem_singleton.1 htext]
              exact isResult_textBlock _
          · obtain ⟨d, -, rfl⟩ := List.mem_map.1 huse
            exact isResult_toolUseBlock _ _ _
        · exact tidy_entry_user _
      · exact ih hrest

theorem Tidy.trimmedMessage {message : Json} (h : Tidy message) (keep later : Nat) :
    Tidy (Prompt.Rounds.trimmedMessage keep later message) := by
  intro hnone
  rw [blocks?_trimmedMessage, Option.map_eq_none_iff] at hnone
  rw [Prompt.Rounds.trimmedMessage, hnone]
  exact h hnone

theorem tidy_of_mem_trimmedPrompt {keep later : Nat} {prompt : List Json}
    (h : ∀ message ∈ prompt, Tidy message) :
    ∀ message ∈ trimmedPrompt keep later prompt, Tidy message := by
  induction prompt with
  | nil => exact nofun
  | cons message rest ih =>
      intro other hother
      rcases List.mem_cons.1 hother with rfl | hrest
      · exact (h message List.mem_cons_self).trimmedMessage keep _
      · exact ih (fun m hm => h m (List.mem_cons_of_mem _ hm)) other hrest

/-! ## The prompt of a model call -/

/-- A round appends its messages to what came in since the last trimming, and trims all of it. -/
theorem exists_round_of_resume {agent : Agent σ} {turn turn' : Running} {reply : Reply}
    {s s' : Agent.State σ} {v : Visit}
    (hprompt : ResultsBelow (2 ^ 63) v.all →
      turn.prompt = v.given agent.settings.keptResults.toNat)
    (h : resume agent turn (.ok reply) s = (.ok (.calling turn'), s')) :
    let all := v.all ++ roundMessages reply.content
      (runCalls agent.tools reply.toolCalls s.world).1
    s'.world = (runCalls agent.tools reply.toolCalls s.world).2 ∧
      (ResultsBelow (2 ^ 63) all →
        turn'.prompt = trimmedPrompt agent.settings.keptResults.toNat 0 all) := by
  intro all
  obtain ⟨given, hgiven, hworld, trimmed, htrim, hafter⟩ := resume_eq_calling h
  cases hgiven
  refine ⟨hworld, ?_⟩
  intro hbelow
  have hbefore : ResultsBelow (2 ^ 63) v.all :=
    fun message hmessage => hbelow message (List.mem_append_left _ hmessage)
  let next : Visit := ⟨v.seen, v.fresh ++ roundMessages reply.content
    (runCalls agent.tools reply.toolCalls s.world).1⟩
  have hall : next.all = all := (List.append_assoc _ _ _).symm
  have hnext := (Visit.trimmedPrompt_given agent.settings.keptResults.toNat next
    (by rwa [hall])).1
  rw [hall] at hnext
  rw [hafter, eq_of_trim_eq_ok htrim, hprompt hbefore, Visit.given, List.append_assoc]
  exact hnext

/-- At a model call but the first one, the prompt is what one trimming leaves of what was in the
    prompt before and of the rounds that followed. -/
theorem calls_trimmed {agent : Agent σ} {replies : List (Except String Reply)}
    {turn turn' : Running} {s : Agent.State σ} {v : Visit} {k : Nat}
    (hprompt : ResultsBelow (2 ^ 63) v.all →
      turn.prompt = v.given agent.settings.keptResults.toNat)
    (h : (finish agent replies (.ok (.calling turn), s)).calls[k + 1]? = some turn') :
    ∃ given, given.length = k + 1 ∧ replies.take (k + 1) = given.map Except.ok ∧
      (ResultsBelow (2 ^ 63) (v.all ++ roundsOf agent.tools given s.world) →
        turn'.prompt = trimmedPrompt agent.settings.keptResults.toNat 0
          (v.all ++ roundsOf agent.tools given s.world)) := by
  induction k generalizing replies turn s v with
  | zero =>
      obtain ⟨reply, rest, next, after, rfl, hnext, hcalls, -⟩ := exists_reply_of_calls_succ h
      rw [calls_zero, Option.some.injEq] at hcalls
      obtain ⟨-, htrimmed⟩ := exists_round_of_resume hprompt hnext
      refine ⟨[reply], rfl, rfl, ?_⟩
      rw [roundsOf, roundsOf, List.append_nil, ← hcalls]
      exact htrimmed
  | succ k ih =>
      obtain ⟨reply, rest, next, after, rfl, hnext, hcalls, -⟩ := exists_reply_of_calls_succ h
      obtain ⟨hworld, htrimmed⟩ := exists_round_of_resume hprompt hnext
      -- after the round everything has been trimmed, and nothing has come in since
      let later : Visit := ⟨v.all ++ roundMessages reply.content
        (runCalls agent.tools reply.toolCalls s.world).1, []⟩
      have hall : later.all = later.seen := List.append_nil _
      have hlater : ResultsBelow (2 ^ 63) later.all →
          next.prompt = later.given agent.settings.keptResults.toNat := by
        intro hbelow
        rw [hall] at hbelow
        rw [htrimmed hbelow, Visit.given, List.append_nil]
      obtain ⟨given, hlength, htake, hfinal⟩ := ih hlater hcalls
      refine ⟨reply :: given, ?_, ?_, ?_⟩
      · rw [List.length_cons, hlength]
      · rw [List.take_succ_cons, htake, List.map_cons]
      · rw [roundsOf, ← hworld, ← List.append_assoc]
        rw [hall] at hfinal
        exact hfinal

/-! ## The results that a model call is shown -/

/-- A result among trimmed ones, with as many results behind it as are kept or with fewer. -/
theorem shownAll_cases (keep : Int) {came : List Json} {p : Nat} {block : Json} {text : String}
    (hblock : came[p]? = some block) (htext : resultText? block = some text)
    (hsize : text.length < 2 ^ 63) :
    if (p : Int) + max 0 keep < came.length then
      ∃ now content, (shownAll keep.toNat 0 came)[p]? = some now ∧
        resultText? now = some content ∧ content.length ≤ 200 ∧
        content = if 200 < text.length then placeholder text.length else text
    else (shownAll keep.toNat 0 came)[p]? = some block := by
  have hp : p < came.length := (List.getElem?_eq_some_iff.1 hblock).1
  rw [getElem?_shownAll, hblock, Option.map_some, Nat.zero_add]
  by_cases hold : (p : Int) + max 0 keep < came.length
  · have hkeep : keep.toNat ≤ came.length - (p + 1) := by omega
    rw [if_pos hold]
    refine ⟨_, _, rfl, resultText?_shown htext hkeep, ?_, rfl⟩
    by_cases hlong : keptLength < text.length
    · rw [if_pos hlong]
      exact length_placeholder_le hsize
    · rw [if_neg hlong]
      exact Nat.le_of_not_lt hlong
  · rw [if_neg hold, shown_of_lt (by omega)]

/-- The results of a prompt of tidy messages, after one trimming. -/
theorem resultsOf_trimmedPrompt (keep later : Nat) {prompt : List Json}
    (h : ∀ message ∈ prompt, Tidy message) :
    resultsOf (trimmedPrompt keep later prompt) = shownAll keep later (resultsOf prompt) := by
  rw [resultsOf_eq (tidy_of_mem_trimmedPrompt h), resultsOf_eq h, results_trimmedPrompt]

theorem tidy_of_opening {agent : Agent σ} {id : String} {messages : List Message}
    {s : Agent.State σ} {prompt : List Json} (h : Opening agent id messages s prompt)
    {tools : Tool.Registry σ} {given : List Reply} {world : Work.World σ} :
    ∀ message ∈ prompt ++ roundsOf tools given world, Tidy message := by
  obtain ⟨_, _, done, -, -, -, rfl⟩ := h
  intro message hmessage
  rcases List.mem_append.1 hmessage with hfront | hround
  · exact tidy_of_mem_ofMessages hfront
  · exact tidy_of_mem_roundsOf hround

/-- The results in a prompt came in as texts that are not too long to be counted. -/
def Textual (came : List Json) : Prop :=
  ∀ block ∈ came, ∃ text, resultText? block = some text ∧ text.length < 2 ^ 63

theorem Textual.resultsBelow {prompt : List Json} (h : Textual (resultsOf prompt))
    (htidy : ∀ message ∈ prompt, Tidy message) : ResultsBelow (2 ^ 63) prompt := by
  rw [resultsOf_eq htidy] at h
  refine resultsBelow_of_results ?_
  intro block hblock text htext
  obtain ⟨own, hown, hsize⟩ := h block hblock
  rw [hown, Option.some.injEq] at htext
  rwa [← htext]

/-- **Between rounds, all but the newest results are short.** At every model call of a turn but the
    first one, the results in the prompt are those that the prompt of the first call held, of
    the conversation before, and those of the rounds since, in their order. Provided that all of
    them came in as texts of less than `2 ^ 63` characters, each but the newest ones, of which
    there are as many as results are kept, has a content of at most 200 characters: its own text, or
    the placeholder for a longer one. The newest ones are as they came in. -/
theorem run_bounded (agent : Agent σ) (id : String) (messages : List Message) (now : Moment)
    (replies : List (Except String Reply)) (s : Agent.State σ) (k : Nat) (turn : Running)
    (h : (run agent id messages now replies s).calls[k + 1]? = some turn) :
    ∃ first given,
      (run agent id messages now replies s).calls[0]? = some first ∧
      Opening agent id messages s first.call.messages ∧
      replies.take (k + 1) = given.map Except.ok ∧ given.length = k + 1 ∧
      let came := resultsOf (first.call.messages ++ roundsOf agent.tools given s.world)
      let held := resultsOf turn.call.messages
      Textual came →
        held.length = came.length ∧
        ∀ (p : Nat) block text, came[p]? = some block → resultText? block = some text →
          if (p : Int) + max 0 agent.settings.keptResults < came.length then
            ∃ now content, held[p]? = some now ∧ resultText? now = some content ∧
              content.length ≤ 200 ∧
              content = if 200 < text.length then placeholder text.length else text
          else held[p]? = some block := by
  unfold run at h ⊢
  cases hbegin : begin agent id messages now s with
  | mk progress after =>
      rw [hbegin] at h
      match progress with
      | .error fault => exact absurd h (by simp)
      | .ok (.finished outcome) => exact absurd h (by simp)
      | .ok (.calling first) =>
          obtain ⟨hworld, hopening⟩ := begin_eq_calling hbegin
          -- at the first call nothing has been trimmed
          obtain ⟨given, hlength, htake, htrimmed⟩ :=
            calls_trimmed (v := ⟨[], first.prompt⟩) (fun _ => rfl) h
          rw [hworld] at htrimmed
          refine ⟨first, given, calls_zero _ _ _ _, hopening, htake, hlength, ?_⟩
          intro came held hcame
          have htidy : ∀ message ∈ first.prompt ++ roundsOf agent.tools given s.world,
              Tidy message := tidy_of_opening hopening
          have hprompt : turn.prompt = trimmedPrompt agent.settings.keptResults.toNat 0
              (first.prompt ++ roundsOf agent.tools given s.world) :=
            htrimmed (hcame.resultsBelow htidy)
          have hheld : held = shownAll agent.settings.keptResults.toNat 0 came := by
            show resultsOf turn.prompt = _
            rw [hprompt, resultsOf_trimmedPrompt _ _ htidy]
            rfl
          rw [hheld]
          refine ⟨length_shownAll _ _ _, ?_⟩
          intro p block text hblock htext
          obtain ⟨own, hown, hsize⟩ := hcame block (List.mem_of_getElem? hblock)
          rw [htext, Option.some.injEq] at hown
          exact shownAll_cases _ hblock htext (hown ▸ hsize)

/-- The results of the scribe's turn, as they come in. -/
theorem resultsOf_twoReads {prompt : List Json} (h : resultsOf prompt = []) :
    resultsOf (prompt ++ roundsOf scribe.tools [twoReads] ⟨(), []⟩)
      = [firstRead.resultBlock, secondRead.resultBlock] := by
  have hrounds : roundsOf scribe.tools [twoReads] ⟨(), []⟩
      = roundMessages "" [firstRead, secondRead] := rfl
  have hround : resultsOf (roundMessages "" [firstRead, secondRead])
      = [firstRead.resultBlock, secondRead.resultBlock] := rfl
  rw [hrounds, resultsOf, List.flatMap_append, List.filter_append]
  show resultsOf prompt ++ resultsOf (roundMessages "" [firstRead, secondRead]) = _
  rw [h, hround, List.nil_append]

/-- One result is kept, so of two long ones the second model call has the placeholder of the
    first. -/
theorem run_bounded_scribeTurn :
    ∃ turn now, scribeTurn.calls[1]? = some turn ∧
      (resultsOf turn.call.messages)[0]? = some now ∧
      resultText? now = some (placeholder 201) ∧
      (resultsOf turn.call.messages)[1]? = some secondRead.resultBlock := by
  obtain ⟨opened, s, hbegin, hprompt, -, -⟩ := scribeTurn_begins
  obtain ⟨-, -, turn, -, -, -, hturn⟩ := scribeTurn_resumes
  obtain ⟨first, given, hfirst, -, htake, -, hshown⟩ :=
    run_bounded scribe "c" [⟨.string "user", .string "q", []⟩] ⟨2024, 1, 1, 0, 0, 0, .none⟩
      [.ok twoReads] (scribe.initial ⟨[], []⟩ ()) 0 turn hturn
  obtain rfl : given = [twoReads] :=
    List.map_injective_iff.2 (fun _ _ => Except.ok.inj) htake.symm
  have hopened : first = opened := by
    rw [run, hbegin, calls_zero, Option.some.injEq] at hfirst
    exact hfirst.symm
  have hcame : resultsOf (first.call.messages ++ roundsOf scribe.tools [twoReads] ⟨(), []⟩)
      = [firstRead.resultBlock, secondRead.resultBlock] := by
    refine resultsOf_twoReads ?_
    show resultsOf first.prompt = []
    rw [hopened, hprompt]
    rfl
  have hlength : (longText 201).length = 201 := length_longText 201
  have htext : resultText? firstRead.resultBlock = some (longText 201) ∧
      resultText? secondRead.resultBlock = some (longText 201) :=
    ⟨resultText?_toolResultBlock _ _ _, resultText?_toolResultBlock _ _ _⟩
  have hworld : (scribe.initial ⟨[], []⟩ ()).world = ⟨(), []⟩ := rfl
  rw [hworld, hcame] at hshown
  obtain ⟨-, hplaces⟩ := hshown (by
    intro block hblock
    rcases List.mem_pair.1 hblock with rfl | rfl
    · exact ⟨_, htext.1, by rw [hlength]; decide⟩
    · exact ⟨_, htext.2, by rw [hlength]; decide⟩)
  have hold := hplaces 0 _ _ rfl htext.1
  have hnew := hplaces 1 _ _ rfl htext.2
  rw [if_pos (by decide)] at hold
  rw [if_neg (by decide)] at hnew
  obtain ⟨now, content, hnow, hcontent, -, hshort⟩ := hold
  rw [hlength, if_pos (by decide)] at hshort
  exact ⟨turn, now, hturn, hnow, hshort ▸ hcontent, hnew⟩

end Parley.Turn
