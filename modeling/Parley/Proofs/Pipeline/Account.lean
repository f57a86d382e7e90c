import Parley.Proofs.Pipeline.Frame
import Mathlib.Algebra.Order.BigOperators.Group.List
set_option autoImplicit false

/-! # Reports account for what changed

A report is held against the conversation before and after (`Account`): its entries add up to the
characters that are gone and name the messages that differ, and its tokens are the exact ceilings
of quarters. An account of one pass is read off the rewriting of single tool calls
(`Pass.compact_account`). Accounts of passes that ran one after the other add up
(`Account.merge`): the characters telescope, and since shrinking never comes back, a message that
any pass changed differs in the end. -/

namespace Parley

/-- The characters that an entry says are gone. -/
def Entry.shrinkage (e : Entry) : Int :=
  e.sizeBefore - e.sizeAfter

/-- The characters of a conversation of texts. -/
def conversationSize (messages : List Message) : Nat :=
  (messages.map Message.textSize).sum

/-- A report that accounts for the difference between two conversations. -/
structure Account (before : List Message) (report : Report) (after : List Message) : Prop where
  shrinks : ∀ e ∈ report.entries, e.sizeAfter < e.sizeBefore
  characters : (report.entries.map Entry.shrinkage).sum
    = (conversationSize before : Int) - conversationSize after
  tokens : report.tokensSaved
    = (report.entries.map fun e => ⌈(e.shrinkage : Rat) / 4⌉).sum
  indexes : ∀ index, index ∈ report.entries.map Entry.messageIndex
    ↔ ∃ i : Nat, index = i ∧ after[i]? ≠ before[i]?

/-! ## What one strategy makes of a message -/

namespace Strategy

/-- A message is rewritten exactly if there is an entry for it. -/
theorem rewrite_eq_self_iff {s : Strategy} {m : Message} (index : Nat) (h : m.TextResults) :
    s.rewrite m = m ↔ s.entriesAt index m = [] := by
  obtain ⟨role, content, calls⟩ := m
  unfold rewrite entriesAt
  split_ifs with hreach
  · have hmap : calls.map s.rewriteCall = calls ↔ ∀ call ∈ calls, s.rewriteCall call = call := by
      conv_lhs => rhs; rw [← List.map_id calls]
      exact List.map_inj_left
    simp only [Message.mk.injEq, true_and, hmap, List.filterMap_eq_nil_iff, entryFor?,
      Option.map_eq_none_iff]
    exact forall₂_congr fun call hcall => rewriteCall_eq_self_iff (h call hcall)
  · simp

/-- The entry for a call says how many characters its result lost. -/
theorem shrinkage_entryFor? (s : Strategy) (index : Nat) (call : ToolCall) :
    ((s.entryFor? index call).toList.map Entry.shrinkage).sum
      = (call.result.textSize : Int) - (s.rewriteCall call).result.textSize := by
  unfold entryFor? rewriteCall
  cases s.newText? call with
  | none => simp
  | some text => simp [Entry.shrinkage, Json.textSize]

theorem shrinkage_calls (s : Strategy) (index : Nat) (calls : List ToolCall) :
    ((calls.filterMap (s.entryFor? index)).map Entry.shrinkage).sum
      = ((calls.map fun call => call.result.textSize).sum : Nat)
        - ((calls.map s.rewriteCall).map fun call => call.result.textSize).sum := by
  induction calls with
  | nil => rfl
  | cons call rest ih =>
      have hown := s.shrinkage_entryFor? index call
      have hsplit : (call :: rest).filterMap (s.entryFor? index)
          = (s.entryFor? index call).toList ++ rest.filterMap (s.entryFor? index) := by
        cases hentry : s.entryFor? index call <;> simp [hentry]
      rw [hsplit, List.map_append, List.sum_append, ih, hown]
      simp only [List.map_cons, List.sum_cons]
      omega

theorem shrinkage_entriesAt (s : Strategy) (index : Nat) (m : Message) :
    ((s.entriesAt index m).map Entry.shrinkage).sum
      = (m.textSize : Int) - (s.rewrite m).textSize := by
  unfold entriesAt rewrite
  split_ifs
  · rw [shrinkage_calls]
    simp only [Message.textSize]
    omega
  · simp

theorem shrinkage_entriesFrom (s : Strategy) (index : Nat) (messages : List Message) :
    ((s.entriesFrom index messages).map Entry.shrinkage).sum
      = (conversationSize messages : Int) - conversationSize (messages.map s.rewrite) := by
  induction messages generalizing index with
  | nil => rfl
  | cons m rest ih =>
      simp only [entriesFrom, List.map_append, List.sum_append, shrinkage_entriesAt, ih,
        conversationSize, List.map_cons, List.sum_cons]
      push_cast
      ring

/-- What a compacted conversation holds at an index. -/
theorem getElem?_compacted (s : Strategy) (boundary : Nat) (messages : List Message) (i : Nat) :
    (s.compacted boundary messages)[i]?
      = if i < boundary then messages[i]?.map s.rewrite else messages[i]? := by
  unfold compacted
  rw [List.getElem?_append, List.length_map, List.length_take, List.getElem?_map,
    List.getElem?_take, List.getElem?_drop]
  split_ifs with hlt hi hi
  · rfl
  · omega
  · have hshort : messages.length ≤ i := by omega
    rw [List.getElem?_eq_none (by omega), List.getElem?_eq_none hshort]
    rfl
  · by_cases hboundary : boundary ≤ messages.length
    · rw [Nat.min_eq_left hboundary, Nat.add_sub_cancel' (Nat.le_of_not_lt hi)]
    · rw [List.getElem?_eq_none (by omega), List.getElem?_eq_none (by omega)]

theorem conversationSize_compacted (s : Strategy) (boundary : Nat) (messages : List Message) :
    (conversationSize messages : Int) - conversationSize (s.compacted boundary messages)
      = (conversationSize (messages.take boundary) : Int)
        - conversationSize ((messages.take boundary).map s.rewrite) := by
  have hsplit : conversationSize messages
      = conversationSize (messages.take boundary) + conversationSize (messages.drop boundary) := by
    conv_lhs => rw [← List.take_append_drop boundary messages]
    simp [conversationSize]
  have hcompacted : conversationSize (s.compacted boundary messages)
      = conversationSize ((messages.take boundary).map s.rewrite)
        + conversationSize (messages.drop boundary) := by
    simp [conversationSize, compacted]
  omega

/-- Entries name exactly the messages that a compaction changes. -/
theorem mem_indexes_iff (s : Strategy) (boundary : Nat) {messages : List Message}
    (h : ∀ m ∈ messages, m.TextResults) (index : Int) :
    index ∈ (s.entriesFrom 0 (messages.take boundary)).map Entry.messageIndex
      ↔ ∃ i : Nat, index = i ∧ (s.compacted boundary messages)[i]? ≠ messages[i]? := by
  rw [List.mem_map]
  constructor
  · rintro ⟨e, he, rfl⟩
    obtain ⟨i, m, hm, hentry⟩ := mem_entriesFrom.1 he
    rw [Nat.zero_add] at hentry
    have hi : i < boundary := by
      have hlength := (List.getElem?_eq_some_iff.1 hm).1
      rw [List.length_take] at hlength
      omega
    rw [List.getElem?_take_of_lt hi] at hm
    have htext := h m (List.mem_of_getElem? hm)
    obtain ⟨call, hcall, hcallEntry⟩ := exists_call_of_mem_entriesAt hentry
    refine ⟨i, (sizes_of_entryFor? (htext call hcall) hcallEntry).1, ?_⟩
    rw [getElem?_compacted, if_pos hi, hm]
    intro hsame
    simp only [Option.map_some, Option.some.injEq] at hsame
    rw [(rewrite_eq_self_iff i htext).1 hsame] at hentry
    exact absurd hentry (by simp)
  · rintro ⟨i, rfl, hne⟩
    rw [getElem?_compacted] at hne
    split_ifs at hne with hi
    · cases hm : messages[i]? with
      | none => simp [hm] at hne
      | some m =>
          have htext := h m (List.mem_of_getElem? hm)
          have hchanged : s.rewrite m ≠ m := by simpa [hm] using hne
          obtain ⟨e, he⟩ := List.exists_mem_of_ne_nil _
            (mt (rewrite_eq_self_iff i htext).2 hchanged)
          obtain ⟨call, hcall, hcallEntry⟩ := exists_call_of_mem_entriesAt he
          refine ⟨e, mem_entriesFrom.2 ⟨i, m, ?_, by rwa [Nat.zero_add]⟩, ?_⟩
          · rw [List.getElem?_take_of_lt hi, hm]
          · exact (sizes_of_entryFor? (htext call hcall) hcallEntry).1
    · exact absurd rfl hne

end Strategy

/-! ## The account of one pass -/

theorem textSize_le_conversationSize {messages : List Message} {m : Message} (hm : m ∈ messages)
    {call : ToolCall} (hcall : call ∈ m.toolCalls) :
    call.result.textSize ≤ conversationSize messages := by
  have hcallSize : call.result.textSize
      ≤ (m.toolCalls.map fun other => other.result.textSize).sum :=
    List.le_sum_of_mem (List.mem_map_of_mem hcall)
  have hmessageSize : m.textSize ≤ conversationSize messages :=
    List.le_sum_of_mem (List.mem_map_of_mem hm)
  unfold Message.textSize at hmessageSize
  omega

theorem conversationSize_le_of_shrunk {before after : List Message}
    (h : List.Forall₂ Message.Shrunk before after) :
    conversationSize after ≤ conversationSize before := by
  rcases Pointwise.eq_or_sum_lt @Message.Shrunk.eq_or_lt h with rfl | hlt
  · exact Nat.le_refl _
  · exact Nat.le_of_lt hlt

/-- The estimated size of the prompt of fewer than `2 ^ 53` characters. -/
theorem Budget.promptTokens_eq {messages : List Message}
    (hcontent : ∀ m ∈ messages, m.content.isTextual = true)
    (hresults : ∀ m ∈ messages, m.TextResults) (hsize : conversationSize messages < 2 ^ 53)
    (lastInput : Int) :
    promptTokens messages lastInput
      = .ok (lastInput + ⌈((conversationSize messages : Int) : Rat) / 4⌉) := by
  have hchars : ((conversationSize messages : Int)).natAbs < 2 ^ 53 := hsize
  simp only [promptTokens, messageChars_eq hcontent hresults, bind, Except.bind]
  rw [← conversationSize, tokens_eq_ceil hchars.le]
  rfl

/-- Entries of fewer than `2 ^ 53` characters save exact ceilings. -/
theorem Entry.tokensSaved_eq {entries : List Entry}
    (h : ∀ e ∈ entries, e.shrinkage.natAbs < 2 ^ 53) :
    Entry.tokensSaved entries
      = .ok (entries.map fun e => ⌈(e.shrinkage : Rat) / 4⌉).sum := by
  induction entries with
  | nil => rfl
  | cons e rest ih =>
      have hown := Budget.saved_eq_ceil (h e List.mem_cons_self).le
      have hothers := ih fun other hother => h other (List.mem_cons_of_mem _ hother)
      simp only [tokensSaved, hown, hothers, bind, Except.bind, pure, Except.pure, List.map_cons,
        List.sum_cons, shrinkage]

namespace Pass

theorem compact_account {p : Pass} {messages : List Message} {window : Int} {done : Compaction}
    (h : ∀ m ∈ messages, m.TextResults) (hsmall : conversationSize messages < 2 ^ 53)
    (hdone : p.compact messages window = .ok done) :
    Account messages done.report done.messages := by
  obtain ⟨hmessages, hentries, -, hsaved⟩ := (compact_eq_ok_iff h).1 hdone
  have hsizes : ∀ e ∈ p.entries messages window, e.shrinkage.natAbs < 2 ^ 53 := by
    intro e he
    obtain ⟨m, hm, call, hcall, hbefore, hafter, hlt⟩ := sizes_of_mem_entries h he
    have hsize := textSize_le_conversationSize hm hcall
    unfold Entry.shrinkage
    omega
  rw [Entry.tokensSaved_eq hsizes, Except.ok.injEq] at hsaved
  constructor
  · intro e he
    obtain ⟨m, hm, call, hcall, hbefore, hafter, hlt⟩ := sizes_of_mem_entries h (hentries ▸ he)
    exact hlt
  · rw [hentries, hmessages, Strategy.conversationSize_compacted, entries,
      Strategy.shrinkage_entriesFrom]
  · rw [hentries, hsaved]
  · intro index
    rw [hentries, hmessages]
    exact p.strategy.mem_indexes_iff _ h index

end Pass

namespace Account

variable {before mid after : List Message} {r r' : Report}

/-- The accounts of two passes, the second one after the first, add up. -/
theorem merge (h : Account before r mid) (h' : Account mid r' after)
    (hshrunk : List.Forall₂ Message.Shrunk before mid)
    (hshrunk' : List.Forall₂ Message.Shrunk mid after) :
    Account before (r.merge r') after where
  shrinks := by
    intro e he
    rcases List.mem_append.1 he with he | he
    · exact h.shrinks e he
    · exact h'.shrinks e he
  characters := by
    simp only [Report.merge, List.map_append, List.sum_append, h.characters, h'.characters]
    omega
  tokens := by
    simp only [Report.merge, List.map_append, List.sum_append, h.tokens, h'.tokens]
  indexes := by
    intro index
    simp only [Report.merge, List.map_append, List.mem_append, h.indexes, h'.indexes]
    constructor
    · -- what a pass changed cannot come back, because it would have to grow again
      rintro (⟨i, rfl, hne⟩ | ⟨i, rfl, hne⟩)
      all_goals
        refine ⟨i, rfl, fun hsame => hne ?_⟩
        cases hm : before[i]? with
        | none =>
            have hlength := hshrunk.length_eq
            have hlength' := hshrunk'.length_eq
            rw [List.getElem?_eq_none_iff] at hm
            simp only [List.getElem?_eq_none_iff.2 (show after.length ≤ i by omega),
              List.getElem?_eq_none_iff.2 (show mid.length ≤ i by omega)]
        | some m =>
            obtain ⟨m', hm', hfirst⟩ := Pointwise.exists_getElem? hshrunk hm
            obtain ⟨m'', hm'', hsecond⟩ := Pointwise.exists_getElem? hshrunk' hm'
            rw [hm, hm'', Option.some.injEq] at hsame
            subst hsame
            have hreturn := hfirst.eq_of_return hsecond
            simp [hm', hm'', hreturn]
    · rintro ⟨i, rfl, hne⟩
      by_cases hfirst : mid[i]? = before[i]?
      · exact Or.inr ⟨i, rfl, fun hsecond => hne (hsecond.trans hfirst)⟩
      · exact Or.inl ⟨i, rfl, hfirst⟩

theorem entries_eq_nil_iff (h : Account before r after) : r.entries = [] ↔ after = before := by
  constructor
  · intro hnil
    refine List.ext_getElem? fun i => ?_
    by_contra hne
    have hmem := (h.indexes i).2 ⟨i, rfl, hne⟩
    rw [hnil] at hmem
    exact absurd hmem (by simp)
  · rintro rfl
    refine List.eq_nil_iff_forall_not_mem.2 fun e he => ?_
    obtain ⟨i, -, hne⟩ := (h.indexes e.messageIndex).1 (List.mem_map_of_mem he)
    exact hne rfl

end Account

/-! ## The account of a pipeline -/

namespace Pipeline

/-- A pass at work: the messages that it was given and what it made of them. -/
structure Stage where
  pass : Pass
  given : List Message
  done : Compaction

/-- The stages of passes that run one after the other, up to the first one that fails. -/
def stages (window : Int) : List Pass → List Message → List Stage
  | [], _ => []
  | p :: rest, messages =>
      match p.compact messages window with
      | .ok done => ⟨p, messages, done⟩ :: stages window rest done.messages
      | .error _ => []

/-- The stages of a pipeline at a ratio. -/
def trace (pipeline : Pipeline) (messages : List Message) (window : Int) (ratio : Binary64) :
    List Stage :=
  stages window (pipeline.active (.float ratio)) messages

/-- The passes that made an entry, by name. -/
def busyNames (trace : List Stage) : List String :=
  (trace.filter fun stage => !stage.done.report.entries.isEmpty).map fun stage => stage.pass.name

theorem busyNames_cons (stage : Stage) (trace : List Stage) :
    busyNames (stage :: trace)
      = (if stage.done.report.entries.isEmpty then [] else [stage.pass.name])
        ++ busyNames trace := by
  unfold busyNames
  cases hempty : stage.done.report.entries.isEmpty <;> simp [hempty]

theorem runPasses_account {window : Int} {passes : List Pass} {messages : List Message}
    {report : Report} {done : Compaction} (h : ∀ m ∈ messages, m.TextResults)
    (hsmall : conversationSize messages < 2 ^ 53)
    (hdone : runPasses window passes ⟨messages, report⟩ = .ok done) :
    ∃ r, done.report = report.merge r ∧ Account messages r done.messages ∧
      r.passesRun = busyNames (stages window passes messages) ∧
      (stages window passes messages).map Stage.pass = passes ∧
      ∀ stage ∈ stages window passes messages,
        stage.done.report.entries = [] ↔ stage.done.messages = stage.given := by
  induction passes generalizing messages report with
  | nil =>
      simp only [runPasses, Except.ok.injEq] at hdone
      subst hdone
      refine ⟨Report.empty, by simp, ?_, rfl, rfl, by simp [stages]⟩
      exact ⟨by simp [Report.empty], by simp [Report.empty], rfl, by simp [Report.empty]⟩
  | cons p rest ih =>
      obtain ⟨next, hnext, hrest⟩ := runPasses_cons_eq_ok hdone
      have hframe := Pass.compact_frame h hnext
      have haccount := Pass.compact_account h hsmall hnext
      have hsmaller := conversationSize_le_of_shrunk hframe.shrunk
      have htexts := hframe.textResults h
      obtain ⟨r, hreport, hlater, hnames, hpasses, hstages⟩ :=
        ih htexts (hsmaller.trans_lt hsmall) hrest
      refine ⟨next.report.merge r, ?_,
        haccount.merge hlater hframe.shrunk (runPasses_frame htexts hrest).shrunk, ?_, ?_, ?_⟩
      · rw [hreport, Report.merge_assoc]
      · obtain ⟨-, hentries, hown, -⟩ := (Pass.compact_eq_ok_iff h).1 hnext
        simp only [stages, hnext, busyNames_cons, Report.merge, hnames, hown, hentries]
      · simp only [stages, hnext, List.map_cons, hpasses]
      · intro stage hstage
        simp only [stages, hnext, List.mem_cons] at hstage
        rcases hstage with rfl | hstage
        · exact haccount.entries_eq_nil_iff
        · exact hstages stage hstage

/-- **The account of compaction.** On texts of fewer than `2 ^ 53` characters in all, the report of
    a pipeline accounts exactly for what changed: each entry shrinks a result, the characters that
    entries lost are those that the conversation lost, the tokens saved are the exact ceilings of
    quarters, and the messages with entries are those that differ in the end. The passes it names
    are those of its active passes that made an entry, in the order of the pipeline, and these are
    the passes that changed what they were given. -/
theorem run_account (pipeline : Pipeline) (messages : List Message) (o : Occupancy)
    (ratio : Binary64) (total : Nat) (hratio : o.ratio = .ok ratio)
    (hcontent : ∀ m ∈ messages, m.content.isTextual = true)
    (htext : ∀ m ∈ messages, m.TextResults)
    (htotal : Budget.messageChars messages = .ok total) (hsmall : total < 2 ^ 53) :
    ∃ done left, pipeline.run messages o = .ok done ∧
      Budget.messageChars done.messages = .ok left ∧
      (done.report.entries.map Entry.shrinkage).sum = (total : Int) - left ∧
      (∀ e ∈ done.report.entries, e.sizeAfter < e.sizeBefore) ∧
      done.report.tokensSaved
        = (done.report.entries.map fun e => ⌈(e.shrinkage : Rat) / 4⌉).sum ∧
      (∀ index, index ∈ done.report.entries.map Entry.messageIndex
        ↔ ∃ i : Nat, index = i ∧ done.messages[i]? ≠ messages[i]?) ∧
      done.report.passesRun = busyNames (pipeline.trace messages o.window ratio) ∧
      (pipeline.trace messages o.window ratio).map Stage.pass
        = pipeline.active (.float ratio) ∧
      ∀ stage ∈ pipeline.trace messages o.window ratio,
        stage.done.report.entries = [] ↔ stage.done.messages = stage.given := by
  have hsize : conversationSize messages = total := by
    rw [Budget.messageChars_eq hcontent htext, Except.ok.injEq] at htotal
    exact htotal
  have hfits : FitsMemory messages := by
    intro m hm call hcall
    have hle := textSize_le_conversationSize hm hcall
    omega
  rw [← hsize] at hsmall
  obtain ⟨done, hdone⟩ :=
    runPasses_isOk o.window (pipeline.active (.float ratio)) Report.empty htext hfits
  obtain ⟨r, hreport, haccount, hnames, hpasses, hstages⟩ := runPasses_account htext hsmall hdone
  have hframe := runPasses_frame htext hdone
  have hcontent' : ∀ m ∈ done.messages, m.content.isTextual = true := by
    intro m hm
    obtain ⟨old, hold, hshrunk⟩ := Pointwise.exists_of_mem hframe.shrunk hm
    rw [hshrunk.content]
    exact hcontent old hold
  rw [Report.empty_merge] at hreport
  subst hreport
  refine ⟨done, conversationSize done.messages, ?_,
    Budget.messageChars_eq hcontent' (hframe.textResults htext), ?_, haccount.shrinks,
    haccount.tokens, haccount.indexes, hnames, hpasses, hstages⟩
  · rw [run_eq_runPasses hratio, hdone]
  · rw [haccount.characters, hsize]

/-- Two passes change the same results one after the other, and both are accounted for. -/
theorem run_account_exchange :
    (Occupancy.mk 1 2 1).ratio = .ok (.finite false 4503599627370496 (-53)) ∧
      Budget.messageChars exchange = .ok 142 ∧
      ∃ done, twoPasses.run exchange ⟨1, 2, 1⟩ = .ok done ∧
        done.report.passesRun = ["tool-response-pruner", "stub"] ∧
        (done.report.entries.map Entry.shrinkage).sum = 128 := by
  have hratio : (Occupancy.mk 1 2 1).ratio = .ok (.finite false 4503599627370496 (-53)) := by
    decide +kernel
  have htotal : Budget.messageChars exchange = .ok 142 := by decide +kernel
  have hleft : (twoPasses.run exchange ⟨1, 2, 1⟩).bind
      (fun done => Budget.messageChars done.messages) = .ok 14 := by decide +kernel
  have hbusy : busyNames (twoPasses.trace exchange 1 (.finite false 4503599627370496 (-53)))
      = ["tool-response-pruner", "stub"] := by decide +kernel
  obtain ⟨done, left, hdone, hchars, hsum, -, -, -, hnames, -, -⟩ :=
    run_account twoPasses exchange ⟨1, 2, 1⟩ _ 142 hratio (by decide +kernel) (by decide +kernel)
      htotal (by decide)
  refine ⟨hratio, htotal, done, hdone, hnames.trans hbusy, ?_⟩
  rw [hdone, Except.bind, hchars, Except.ok.injEq] at hleft
  rw [hsum, hleft]
  decide

end Pipeline

end Parley
