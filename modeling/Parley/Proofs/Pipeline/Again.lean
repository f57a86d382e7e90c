import Parley.Proofs.Number.Bounds
import Parley.Proofs.Pipeline.Account
import Parley.Proofs.Pipeline.History
set_option autoImplicit false

/-! # What a second pruning changes

A pruner that runs again meets what its first run left: results that it did not touch, errors that
were cut, and placeholders. The first two it leaves alone for good. A placeholder gives way to
another one exactly if it exceeds the threshold itself and is longer than that other one. The two
differ in nothing but the number that they state, which is the length of the result in one and the
length of the placeholder in the other, so it comes down to the digits of these two numbers
(`Pruner.Relapses`).

A second run takes from each such result only as many characters as its length has digits more, so
it cannot fail where the first run did not (`Pass.compact_again_isOk`). -/

namespace Parley

namespace Pruner

/-! ## One result -/

/-- The number of digits of a number in decimal. -/
def digitCount (n : Nat) : Nat :=
  (Nat.toDigits 10 n).length

/-- The placeholder for a result that is a placeholder already. -/
def placeholderAgain (size : Nat) (tool : String) : String :=
  placeholder (placeholder size tool).length tool

/-- A result gave way to a placeholder that gives way to another one. -/
structure Relapses (p : Pruner) (call : ToolCall) (text : String) : Prop where
  result : call.result = .string text
  uncut : ¬ (call.isError = true ∧ p.errorKeepChars < text.length)
  replaced : p.replacement? call = .ok (some (placeholder text.length call.name.display))
  long : p.truncateThreshold < (placeholder text.length call.name.display).length
  digits : digitCount (placeholder text.length call.name.display).length < digitCount text.length

theorem relapses_iff {p : Pruner} {call : ToolCall} {text : String} :
    p.Relapses call text ↔
      call.result = .string text ∧ ¬ (call.isError = true ∧ p.errorKeepChars < text.length) ∧
      p.replacement? call = .ok (some (placeholder text.length call.name.display)) ∧
      p.truncateThreshold < (placeholder text.length call.name.display).length ∧
      digitCount (placeholder text.length call.name.display).length < digitCount text.length :=
  ⟨fun h => ⟨h.result, h.uncut, h.replaced, h.long, h.digits⟩,
    fun h => ⟨h.1, h.2.1, h.2.2.1, h.2.2.2.1, h.2.2.2.2⟩⟩

instance (p : Pruner) (call : ToolCall) (text : String) : Decidable (p.Relapses call text) :=
  decidable_of_iff _ relapses_iff.symm

/-- The text of a result that gave way to a placeholder that gives way to another one. -/
def relapse? (p : Pruner) (call : ToolCall) : Option String :=
  call.result.text?.filter fun text => decide (p.Relapses call text)

theorem relapse?_eq_some_iff {p : Pruner} {call : ToolCall} {text : String} :
    p.relapse? call = some text ↔ p.Relapses call text := by
  unfold relapse?
  rw [Option.filter_eq_some_iff, decide_eq_true_eq]
  constructor
  · rintro ⟨-, h⟩
    exact h
  · intro h
    refine ⟨?_, h⟩
    rw [h.result]
    rfl

/-- The length of a placeholder is that of its wording, the number and the name. -/
theorem length_placeholder_eq (n : Nat) (tool : String) :
    (placeholder n tool).length = 39 + digitCount n + tool.length := by
  rw [length_placeholder, ← String.length_toList, toList_decimalText, digitCount]
  omega

theorem length_placeholderAgain_lt_iff (size : Nat) (tool : String) :
    (placeholderAgain size tool).length < (placeholder size tool).length ↔
      digitCount (placeholder size tool).length < digitCount size := by
  rw [placeholderAgain, length_placeholder_eq, length_placeholder_eq size]
  omega

/-- Of a result that relapses only the size matters. -/
theorem relapses_iff_size {p : Pruner} {call : ToolCall} {text : String}
    (h : call.result = .string text) :
    p.Relapses call text ↔
      ¬ (call.isError = true ∧ p.errorKeepChars < text.length) ∧
      (placeholder text.length call.name.display).length < text.length ∧
      p.truncateThreshold < (placeholder text.length call.name.display).length ∧
      digitCount (placeholder text.length call.name.display).length < digitCount text.length := by
  constructor
  · intro hrelapses
    rcases replacement?_cases h hrelapses.replaced with ⟨herror, hkeep, -⟩ | ⟨-, -, hshorter⟩
    · exact absurd ⟨herror, hkeep⟩ hrelapses.uncut
    · exact ⟨hrelapses.uncut, hshorter, hrelapses.long, hrelapses.digits⟩
  · rintro ⟨huncut, hshorter, hlong, hdigits⟩
    refine ⟨h, huncut, ?_, hlong, hdigits⟩
    have hover : p.truncateThreshold < text.length := by omega
    simp only [replacement?, h, reduceCtorEq, if_false, Json.size?, Bool.and_eq_true,
      decide_eq_true_eq]
    rw [if_neg huncut, if_pos hover, ifShorter, if_pos hshorter]

/-- A result that was pruned is pruned again exactly if it relapses. -/
theorem replacement?_second {p : Pruner} {call : ToolCall} {old new : String}
    (hold : call.result = .string old) (hnew : p.replacement? call = .ok (some new)) :
    p.replacement? { call with result := .string new }
      = .ok (if p.Relapses call old then some (placeholderAgain old.length call.name.display)
          else none) := by
  by_cases hshort :
      ((placeholder old.length call.name.display).length : Int) ≤ p.truncateThreshold
  · have hstays : ¬ p.Relapses call old := fun h => absurd h.long (not_lt.2 hshort)
    rw [replacement?_again hold hnew hshort, if_neg hstays]
  · rcases replacement?_cases hold hnew with ⟨herror, hkeep, rfl⟩ | ⟨hkeep, rfl, hlt⟩
    · -- an error that was cut is recognised by its marker
      have hstays : ¬ p.Relapses call old := fun h => h.uncut ⟨herror, hkeep⟩
      have hagain := lt_length_cut p.errorKeepChars hkeep old.length
      simp only [replacement?, reduceCtorEq, if_false, Json.size?, Json.text?, Bool.and_eq_true,
        decide_eq_true_eq]
      rw [if_pos ⟨herror, hagain⟩, cutError, if_pos (endsInMarker_append_marker _ _),
        if_neg hstays]
    · -- a placeholder that is too long gives way where the next one is shorter
      have hrelapses : p.Relapses call old ↔
          (placeholderAgain old.length call.name.display).length
            < (placeholder old.length call.name.display).length := by
        rw [length_placeholderAgain_lt_iff]
        exact ⟨fun h => h.digits, fun h => ⟨hold, hkeep, hnew, not_le.1 hshort, h⟩⟩
      have hagain : ¬ (call.isError = true ∧
          p.errorKeepChars < (placeholder old.length call.name.display).length) :=
        fun h => hkeep ⟨h.1, by omega⟩
      simp only [replacement?, reduceCtorEq, if_false, Json.size?, Json.text?, Bool.and_eq_true,
        decide_eq_true_eq]
      rw [if_neg hagain, if_pos (not_le.1 hshort)]
      show Except.ok (ifShorter _ (placeholderAgain old.length call.name.display)) = _
      simp only [ifShorter, hrelapses]

end Pruner

/-! ## One tool call -/

namespace Strategy

theorem newText?_rewriteCall_prune (p : Pruner) {call : ToolCall}
    (h : call.result.isTextual = true) :
    (prune p).newText? ((prune p).rewriteCall call)
      = (p.relapse? call).map fun text =>
          Pruner.placeholderAgain text.length call.name.display := by
  cases hnew : (prune p).newText? call with
  | none =>
      have hsame := (rewriteCall_eq_self_iff h).2 hnew
      have hok := (prune p).replacement?_eq h
      have hnone : p.relapse? call = none := by
        rw [Option.eq_none_iff_forall_ne_some]
        intro text htext
        have hreplaced := (Pruner.relapse?_eq_some_iff.1 htext).replaced
        rw [show p.replacement? call = .ok none from hnew ▸ hok] at hreplaced
        cases hreplaced
      rw [hsame, hnew, hnone]
      rfl
  | some new =>
      obtain ⟨old, hold, -⟩ := exists_text_of_newText? h hnew
      have hok : p.replacement? call = .ok (some new) := hnew ▸ (prune p).replacement?_eq h
      have hrewritten : (prune p).rewriteCall call = { call with result := .string new } := by
        simp only [rewriteCall, hnew]
      have hsecond := Pruner.replacement?_second hold hok
      have hnext : (prune p).newText? { call with result := .string new }
          = if p.Relapses call old then
              some (Pruner.placeholderAgain old.length call.name.display) else none := by
        simp only [newText?, replacement?, hsecond]
      have hrelapse : p.relapse? call = if p.Relapses call old then some old else none := by
        unfold Pruner.relapse?
        rw [hold, Json.text?, Option.filter_some]
        simp only [decide_eq_true_eq]
      rw [hrewritten, hnext, hrelapse]
      split_ifs <;> rfl

end Strategy

/-- The entry of a second run for a tool call of the message at some index, if there is one. -/
def Pruner.relapseEntry? (p : Pruner) (index : Nat) (call : ToolCall) : Option Entry :=
  (p.relapse? call).map fun text => {
    messageIndex := index
    toolCallId := call.id
    toolName := call.name
    action := Entry.truncated
    sizeBefore := (placeholder text.length call.name.display).length
    sizeAfter := (placeholderAgain text.length call.name.display).length }

theorem Pruner.relapseEntry?_eq_some {p : Pruner} (index : Nat) {call : ToolCall} {text : String}
    (h : p.Relapses call text) :
    p.relapseEntry? index call = some {
      messageIndex := index
      toolCallId := call.id
      toolName := call.name
      action := Entry.truncated
      sizeBefore := (placeholder text.length call.name.display).length
      sizeAfter := (placeholderAgain text.length call.name.display).length } := by
  unfold relapseEntry?
  rw [relapse?_eq_some_iff.2 h, Option.map_some]

theorem Pruner.relapseEntry?_eq_none {p : Pruner} (index : Nat) {call : ToolCall}
    (h : ∀ text, ¬ p.Relapses call text) : p.relapseEntry? index call = none := by
  unfold relapseEntry?
  rw [Option.map_eq_none_iff, Option.eq_none_iff_forall_ne_some]
  intro text htext
  exact h text (relapse?_eq_some_iff.1 htext)

/-- The entries of a second run for the messages before the window. -/
def Pruner.relapseEntries (p : Pruner) (messages : List Message) : List Entry :=
  messages.zipIdx.flatMap fun (m, index) =>
    if m.isAssistant then m.toolCalls.filterMap (p.relapseEntry? index) else []

namespace Strategy

theorem isTextual_rewriteCall (s : Strategy) {call : ToolCall}
    (h : call.result.isTextual = true) : (s.rewriteCall call).result.isTextual = true := by
  rw [(s.shrunk_rewriteCall h).result.isTextual_eq, h]

theorem entryFor?_rewriteCall_prune (p : Pruner) (index : Nat) {call : ToolCall}
    (h : call.result.isTextual = true) :
    (prune p).entryFor? index ((prune p).rewriteCall call) = p.relapseEntry? index call := by
  unfold entryFor? Pruner.relapseEntry?
  rw [newText?_rewriteCall_prune p h]
  cases hrelapse : p.relapse? call with
  | none => rfl
  | some text =>
      have hok := (Pruner.relapse?_eq_some_iff.1 hrelapse).replaced
      have hnew : (prune p).newText? call
          = some (Pruner.placeholder text.length call.name.display) := by
        simp only [newText?, replacement?, hok]
      have hrewritten : (prune p).rewriteCall call = { call with
          result := .string (Pruner.placeholder text.length call.name.display) } := by
        simp only [rewriteCall, hnew]
      have hsize : (Json.string (Pruner.placeholder text.length call.name.display)).textSize
          = (Pruner.placeholder text.length call.name.display).length := rfl
      simp only [hrewritten, Option.map_some, hsize]

/-! ## Conversations -/

theorem entriesAt_rewrite_prune (p : Pruner) (index : Nat) {m : Message} (h : m.TextResults) :
    (prune p).entriesAt index ((prune p).rewrite m)
      = if m.isAssistant then m.toolCalls.filterMap (p.relapseEntry? index) else [] := by
  by_cases hreach : m.isAssistant = true
  · have hrewritten : (prune p).rewrite m
        = { m with toolCalls := m.toolCalls.map (prune p).rewriteCall } := if_pos hreach
    rw [if_pos hreach, hrewritten]
    show (if m.isAssistant = true then _ else _) = _
    rw [if_pos hreach, List.filterMap_map]
    exact List.filterMap_congr fun call hcall => entryFor?_rewriteCall_prune p index (h call hcall)
  · have hsame : (prune p).rewrite m = m := if_neg hreach
    rw [if_neg hreach, hsame]
    exact if_neg hreach

theorem entriesFrom_rewrite_prune (p : Pruner) (index : Nat) {messages : List Message}
    (h : ∀ m ∈ messages, m.TextResults) :
    (prune p).entriesFrom index (messages.map (prune p).rewrite)
      = (messages.zipIdx index).flatMap fun (m, index) =>
          if m.isAssistant then m.toolCalls.filterMap (p.relapseEntry? index) else [] := by
  induction messages generalizing index with
  | nil => rfl
  | cons m rest ih =>
      have hrest := ih (index + 1) fun other hother => h other (List.mem_cons_of_mem _ hother)
      rw [List.map_cons, entriesFrom, hrest, entriesAt_rewrite_prune p index (h m List.mem_cons_self)]
      rfl

theorem take_compacted (s : Strategy) {boundary : Nat} {messages : List Message}
    (h : boundary ≤ messages.length) :
    (s.compacted boundary messages).take boundary = (messages.take boundary).map s.rewrite := by
  have hlength : ((messages.take boundary).map s.rewrite).length = boundary := by simp [h]
  rw [compacted, List.take_left' hlength]

end Strategy

/-- The tool call at a place of a conversation. -/
def callAt (messages : List Message) (i j : Nat) : Option ToolCall :=
  messages[i]?.bind fun m => m.toolCalls[j]?

namespace Strategy

theorem toolCalls_rewrite (s : Strategy) (m : Message) :
    (s.rewrite m).toolCalls
      = if s.reaches m = true then m.toolCalls.map s.rewriteCall else m.toolCalls := by
  unfold rewrite
  split_ifs
  · rfl
  · rfl

theorem reaches_rewrite (s : Strategy) (m : Message) : s.reaches (s.rewrite m) = s.reaches m := by
  unfold rewrite
  split_ifs
  · cases s <;> rfl
  · rfl

theorem callAt_compacted (s : Strategy) (boundary : Nat) (messages : List Message) (i j : Nat) :
    callAt (s.compacted boundary messages) i j
      = messages[i]?.bind fun m => m.toolCalls[j]?.map fun call =>
          if i < boundary ∧ s.reaches m = true then s.rewriteCall call else call := by
  unfold callAt
  rw [getElem?_compacted]
  by_cases hi : i < boundary
  · rw [if_pos hi, Option.bind_map]
    congr 1
    funext m
    rw [Function.comp_apply, toolCalls_rewrite]
    by_cases hreach : s.reaches m = true
    · simp [hi, hreach]
    · simp [hreach]
  · simp [hi]

/-- The tool call at a place after two compactions with the same boundary. -/
theorem callAt_compacted_again (s : Strategy) (boundary : Nat) (messages : List Message)
    (i j : Nat) :
    callAt (s.compacted boundary (s.compacted boundary messages)) i j
      = messages[i]?.bind fun m => m.toolCalls[j]?.map fun call =>
          if i < boundary ∧ s.reaches m = true then s.rewriteCall (s.rewriteCall call)
          else call := by
  rw [callAt_compacted, getElem?_compacted]
  by_cases hi : i < boundary
  · rw [if_pos hi, Option.bind_map]
    congr 1
    funext m
    rw [Function.comp_apply, toolCalls_rewrite, reaches_rewrite]
    by_cases hreach : s.reaches m = true
    · simp [hi, hreach, Function.comp_def]
    · simp [hreach]
  · simp [hi]

/-- A call is rewritten again exactly if it relapses. -/
theorem rewriteCall_again_ne_iff (p : Pruner) {call : ToolCall} (h : call.result.isTextual = true) :
    (prune p).rewriteCall ((prune p).rewriteCall call) ≠ (prune p).rewriteCall call ↔
      ∃ text, p.Relapses call text := by
  rw [ne_eq, rewriteCall_eq_self_iff (isTextual_rewriteCall _ h), newText?_rewriteCall_prune p h,
    Option.map_eq_none_iff, ← ne_eq, Option.ne_none_iff_exists']
  simp only [Pruner.relapse?_eq_some_iff]

end Strategy

/-! ## The tokens of a second run -/

theorem Pruner.lt_pow_digitCount (n : Nat) : n < 10 ^ digitCount n :=
  (Nat.length_toDigits_le_iff (by decide) (List.length_pos_iff.2 Nat.toDigits_ne_nil)).1 le_rfl

/-- A number has few digits more than one that it does not exceed by much. -/
theorem Pruner.digitCount_le {n m k : Nat} (h : n < m + 2 ^ (3 * k)) :
    digitCount n ≤ digitCount m + k + 1 := by
  refine (Nat.length_toDigits_le_iff (by decide) (by omega)).2 ?_
  have hm := lt_pow_digitCount m
  have hk : 2 ^ (3 * k) ≤ 10 ^ k := by
    rw [Nat.pow_mul]
    exact Nat.pow_le_pow_left (by decide) k
  have hleft : 10 ^ digitCount m ≤ 10 ^ (digitCount m + k) :=
    Nat.pow_le_pow_right (by decide) (Nat.le_add_right _ _)
  have hright : 10 ^ k ≤ 10 ^ (digitCount m + k) :=
    Nat.pow_le_pow_right (by decide) (Nat.le_add_left _ _)
  rw [Nat.pow_succ]
  omega

theorem Entry.saved_isOk_of_mem {entries : List Entry} {saved : Int}
    (h : Entry.tokensSaved entries = .ok saved) {e : Entry} (he : e ∈ entries) :
    ∃ own, Budget.saved e.sizeBefore e.sizeAfter = .ok own := by
  induction entries generalizing saved with
  | nil => cases he
  | cons first rest ih =>
      cases hown : Budget.saved first.sizeBefore first.sizeAfter with
      | error fault => simp [tokensSaved, hown, bind, Except.bind] at h
      | ok own =>
          cases hrest : Entry.tokensSaved rest with
          | error fault => simp [tokensSaved, hown, hrest, bind, Except.bind] at h
          | ok others =>
              rcases List.mem_cons.1 he with rfl | hmem
              · exact ⟨own, hown⟩
              · exact ih hrest hmem

theorem Pruner.exists_of_mem_relapseEntries {p : Pruner} {messages : List Message} {e : Entry}
    (h : e ∈ p.relapseEntries messages) :
    ∃ i m call text, messages[i]? = some m ∧ m.isAssistant = true ∧ call ∈ m.toolCalls ∧
      p.Relapses call text ∧ p.relapseEntry? i call = some e ∧
      e.sizeBefore = (placeholder text.length call.name.display).length ∧
      e.sizeAfter = (placeholderAgain text.length call.name.display).length := by
  obtain ⟨⟨m, i⟩, hmem, he⟩ := List.mem_flatMap.1 h
  rw [List.mem_zipIdx_iff_getElem?] at hmem
  dsimp only at he
  split_ifs at he with hreach
  · obtain ⟨call, hcall, hentry⟩ := List.mem_filterMap.1 he
    have hsome := hentry
    obtain ⟨text, hrelapse, rfl⟩ := Option.map_eq_some_iff.1 hentry
    exact ⟨i, m, call, text, hmem, hreach, hcall, relapse?_eq_some_iff.1 hrelapse, hsome, rfl, rfl⟩
  · cases he

namespace Pass

/-- What the first run reports about a result that relapses. -/
theorem entry_of_relapses {p : Pruner} {messages : List Message} {window : Int} {i : Nat}
    {m : Message} {call : ToolCall} {text : String}
    (hm : (messages.take (Window.start messages window))[i]? = some m)
    (hreach : m.isAssistant = true) (hcall : call ∈ m.toolCalls) (h : p.Relapses call text) :
    ∃ e ∈ (pruner p).entries messages window, e.sizeBefore = text.length ∧
      e.sizeAfter = (Pruner.placeholder text.length call.name.display).length := by
  have hnew : (Strategy.prune p).newText? call
      = some (Pruner.placeholder text.length call.name.display) := by
    simp only [Strategy.newText?, Strategy.replacement?, h.replaced]
  have hsize : call.result.textSize = text.length := by
    rw [h.result]
    rfl
  obtain ⟨e, hentry, hbefore, hafter⟩ : ∃ e, (Strategy.prune p).entryFor? (0 + i) call = some e ∧
      e.sizeBefore = call.result.textSize ∧
      e.sizeAfter = (Pruner.placeholder text.length call.name.display).length := by
    unfold Strategy.entryFor?
    rw [hnew]
    exact ⟨_, rfl, rfl, rfl⟩
  refine ⟨e, Strategy.mem_entriesFrom.2 ⟨i, m, hm, ?_⟩, ?_, hafter⟩
  · show e ∈ (if m.isAssistant = true then _ else [])
    rw [if_pos hreach]
    exact List.mem_filterMap.2 ⟨call, hcall, hentry⟩
  · rw [hbefore, hsize]

/-- The entries of a second run come to a number of tokens if those of the first run did. -/
theorem tokensSaved_relapseEntries_isOk {p : Pruner} {messages : List Message} {window saved : Int}
    (h : Entry.tokensSaved ((pruner p).entries messages window) = .ok saved) :
    ∃ again, Entry.tokensSaved
      (p.relapseEntries (messages.take (Window.start messages window))) = .ok again := by
  refine Entry.tokensSaved_isOk ?_
  intro e he
  obtain ⟨i, m, call, text, hm, hreach, hcall, hrelapses, -, hbefore, hafter⟩ :=
    Pruner.exists_of_mem_relapseEntries he
  obtain ⟨first, hfirst, hsize, hshort⟩ := entry_of_relapses hm hreach hcall hrelapses
  obtain ⟨own, hown⟩ := Entry.saved_isOk_of_mem h hfirst
  obtain ⟨k, hk⟩ : ∃ k, k = 342 := ⟨342, rfl⟩
  have hlost := Budget.lt_of_tokens_eq_ok hown
  rw [hsize, hshort, show 1026 = 3 * 342 from rfl, ← hk] at hlost
  -- the two runs take as many characters as two lengths have digits apart
  have hfewer := hrelapses.digits
  have hdigits := @Pruner.digitCount_le text.length
    (Pruner.placeholder text.length call.name.display).length k (by omega)
  have hlength := Pruner.length_placeholder_eq text.length call.name.display
  have hlengthAgain := Pruner.length_placeholder_eq
    (Pruner.placeholder text.length call.name.display).length call.name.display
  rw [hbefore, hafter, Pruner.placeholderAgain]
  omega

/-! ## Two runs -/

section TwoRuns

variable {p : Pruner} {messages : List Message} {window : Int} {once : Compaction}

/-- What the second run reports, if it comes to an end. -/
theorem entries_again (h : ∀ m ∈ messages, m.TextResults)
    (honce : (pruner p).compact messages window = .ok once) :
    (pruner p).entries once.messages window
      = p.relapseEntries (messages.take (Window.start messages window)) := by
  obtain ⟨hmessages, -⟩ := (compact_eq_ok_iff h).1 honce
  have hstart := (compact_frame h honce).start_eq
  unfold entries
  rw [hstart, hmessages]
  show (Strategy.prune p).entriesFrom 0 (((Strategy.prune p).compacted _ messages).take _) = _
  rw [Strategy.take_compacted _ (Window.start_le_length messages window)]
  exact Strategy.entriesFrom_rewrite_prune p 0 fun m hm => h m (List.mem_of_mem_take hm)

theorem compact_again_isOk (h : ∀ m ∈ messages, m.TextResults)
    (honce : (pruner p).compact messages window = .ok once) :
    ∃ again, (pruner p).compact once.messages window = .ok again := by
  have htext := (compact_frame h honce).textResults h
  obtain ⟨-, -, -, hsaved⟩ := (compact_eq_ok_iff h).1 honce
  obtain ⟨saved, hagain⟩ := tokensSaved_relapseEntries_isOk hsaved
  rw [← entries_again h honce] at hagain
  exact ⟨⟨_, ⟨_, _, saved⟩⟩, (compact_eq_ok_iff htext).2 ⟨rfl, rfl, rfl, hagain⟩⟩

/-- The tool calls of both runs, place by place. -/
theorem callAt_again {again : Compaction} (h : ∀ m ∈ messages, m.TextResults)
    (honce : (pruner p).compact messages window = .ok once)
    (hagain : (pruner p).compact once.messages window = .ok again) (i j : Nat) :
    callAt again.messages i j ≠ callAt once.messages i j ↔
      ∃ m call text, i < Window.start messages window ∧ messages[i]? = some m ∧
        m.isAssistant = true ∧ m.toolCalls[j]? = some call ∧ p.Relapses call text := by
  have hframe := compact_frame h honce
  have hfirst := ((compact_eq_ok_iff h).1 honce).1
  have hsecond := ((compact_eq_ok_iff (hframe.textResults h)).1 hagain).1
  rw [hframe.start_eq, hfirst] at hsecond
  rw [hsecond, hfirst]
  show callAt ((Strategy.prune p).compacted _ ((Strategy.prune p).compacted _ messages)) i j
    ≠ callAt ((Strategy.prune p).compacted _ messages) i j ↔ _
  rw [Strategy.callAt_compacted_again, Strategy.callAt_compacted]
  cases hm : messages[i]? with
  | none => simp
  | some m =>
      cases hcall : m.toolCalls[j]? with
      | none => simp [hcall]
      | some call =>
          have htext : call.result.isTextual = true :=
            h m (List.mem_of_getElem? hm) call (List.mem_of_getElem? hcall)
          have hreaches : (Strategy.prune p).reaches m = m.isAssistant := rfl
          have hagain := Strategy.rewriteCall_again_ne_iff p htext
          by_cases hplace : i < Window.start messages window ∧ m.isAssistant = true
          · simp [hcall, hreaches, hplace, hagain]
          · rw [Option.bind_some, Option.bind_some, hcall, Option.map_some, Option.map_some, hreaches,
              if_neg hplace, if_neg hplace]
            refine ⟨fun hne => absurd rfl hne, ?_⟩
            rintro ⟨_, _, _, hi, hm', hreach, -⟩
            cases hm'
            exact absurd ⟨hi, hreach⟩ hplace

end TwoRuns

end Pass

/-! ## The standard pruner -/

theorem ToolCall.Prunable.not_relapses {call : ToolCall} (h : call.Prunable) (text : String) :
    ¬ ({} : Pruner).Relapses call text := by
  intro hrelapses
  have hfits := h.fits
  rw [hrelapses.result] at hfits
  have hshort := Pruner.length_placeholder_le (n := text.length) hfits h.name
  have hlong : (1500 : Int) < _ := hrelapses.long
  omega

theorem Pruner.relapseEntries_eq_nil {messages : List Message}
    (h : ∀ m ∈ messages, m.Prunable) : ({} : Pruner).relapseEntries messages = [] := by
  rw [List.eq_nil_iff_forall_not_mem]
  intro e he
  obtain ⟨i, m, call, text, hm, -, hcall, hrelapses, -⟩ := exists_of_mem_relapseEntries he
  exact (h m (List.mem_of_getElem? hm) call hcall).not_relapses text hrelapses

theorem standardPruning.compacted_again {boundary : Nat} {messages : List Message}
    (hboundary : boundary ≤ messages.length) (h : ∀ m ∈ messages, m.Prunable) :
    standardPruning.compacted boundary (standardPruning.compacted boundary messages)
      = standardPruning.compacted boundary messages := by
  have hagain : ∀ m ∈ messages.take boundary,
      standardPruning.rewrite (standardPruning.rewrite m) = standardPruning.rewrite m :=
    fun m hm => standardPruning.rewrite_again (h m (List.mem_of_mem_take hm))
  show ((standardPruning.compacted boundary messages).take boundary).map standardPruning.rewrite
    ++ (standardPruning.compacted boundary messages).drop boundary = _
  rw [Strategy.take_compacted _ hboundary, Strategy.drop_compacted _ hboundary, List.map_map,
    Strategy.compacted]
  congr 1
  exact List.map_congr_left hagain

namespace Pass

/-- **Exactly the relapses are pruned again.** Whatever the limits of a pruner are, a conversation of
    texts that was pruned can be pruned again. The second run changes the tool calls that stand
    before the window in messages of the assistant and whose result gave way, in the first run,
    to a placeholder over the threshold with a length of fewer digits than that of the result; these
    have an entry each. It changes nothing else, and in particular no error of more than the
    characters to keep. With the standard limits, names of at most 1400 characters and results that
    fit in a memory, it changes and reports nothing at all. -/
theorem compact_again (p : Pruner) (messages : List Message) (window : Int)
    (h : ∀ m ∈ messages, m.TextResults) :
    (FitsMemory messages → ∃ once, (pruner p).compact messages window = .ok once) ∧
    ∀ once, (pruner p).compact messages window = .ok once →
      ∃ again, (pruner p).compact once.messages window = .ok again ∧
        List.Forall₂ Message.Shrunk once.messages again.messages ∧
        (∀ i j, callAt again.messages i j ≠ callAt once.messages i j ↔
          ∃ m call text, i < Window.start messages window ∧ messages[i]? = some m ∧
            m.isAssistant = true ∧ m.toolCalls[j]? = some call ∧ p.Relapses call text) ∧
        (∀ i j m call, messages[i]? = some m → m.toolCalls[j]? = some call →
          call.isError = true → p.errorKeepChars < call.result.textSize →
          callAt again.messages i j = callAt once.messages i j) ∧
        again.report.entries
          = p.relapseEntries (messages.take (Window.start messages window)) ∧
        (p = {} → (∀ m ∈ messages, m.Prunable) → again = ⟨once.messages, .empty⟩) := by
  refine ⟨fun hfits => compact_isOk _ window h hfits, ?_⟩
  intro once honce
  obtain ⟨again, hagain⟩ := compact_again_isOk h honce
  have hframe := compact_frame h honce
  have htext := hframe.textResults h
  have hplaces := callAt_again h honce hagain
  obtain ⟨hmessages, hentries, hpasses, hsaved⟩ := (compact_eq_ok_iff htext).1 hagain
  rw [entries_again h honce] at hentries hpasses hsaved
  refine ⟨again, hagain, (compact_frame htext hagain).shrunk, hplaces, ?_, hentries, ?_⟩
  · intro i j m call hm hcall herror hkeep
    by_contra hchanged
    obtain ⟨m', call', text, -, hm', -, hcall', hrelapses⟩ := (hplaces i j).1 hchanged
    cases hm.symm.trans hm'
    cases hcall.symm.trans hcall'
    rw [hrelapses.result] at hkeep
    exact hrelapses.uncut ⟨herror, hkeep⟩
  · rintro rfl hprunable
    have hnone : ({} : Pruner).relapseEntries
        (messages.take (Window.start messages window)) = [] :=
      Pruner.relapseEntries_eq_nil fun m hm => hprunable m (List.mem_of_mem_take hm)
    rw [hnone] at hentries hpasses hsaved
    have hsame : again.messages = once.messages := by
      rw [hmessages, hframe.start_eq, ((compact_eq_ok_iff h).1 honce).1]
      exact standardPruning.compacted_again (Window.start_le_length messages window) hprunable
    have hzero : again.report.tokensSaved = 0 := (Except.ok.inj hsaved).symm
    obtain ⟨_, _, _, _⟩ := again
    cases hsame
    cases hentries
    cases hpasses
    cases hzero
    rfl

/-- The tool call of an errand. -/
def errandCall (size : Nat) (isError : Bool) : ToolCall :=
  ⟨.string "a", .string "read", .object [],
    .string (String.ofList (List.replicate size 'x')), isError⟩

theorem length_errandCall (size : Nat) :
    (String.ofList (List.replicate size 'x')).length = size := by
  rw [String.length_ofList, List.length_replicate]

theorem relapseEntries_errands (p : Pruner) (size size' : Nat) (isError isError' : Bool) :
    p.relapseEntries (History.errand size isError ++ History.errand size' isError')
      = [errandCall size isError].filterMap (p.relapseEntry? 1)
        ++ [errandCall size' isError'].filterMap (p.relapseEntry? 3) := by
  rw [← List.append_nil (List.filterMap (p.relapseEntry? 3) _)]
  rfl

/-- A long result and a long error before the window, and a short result in it. -/
def relapsing : List Message :=
  History.errand 201 false ++ History.errand 600 true ++ History.errand 5 false

/-- With a low threshold the placeholder of 46 characters gives way to one that states a number of
    two digits; with the standard limits nothing changes again. -/
theorem compact_again_relapsing :
    (∃ once again, (pruner ⟨10, 500⟩).compact relapsing 1 = .ok once ∧
      (pruner ⟨10, 500⟩).compact once.messages 1 = .ok again ∧
      again.report.entries.map (fun e => (e.messageIndex, e.sizeBefore, e.sizeAfter))
        = [(1, 46, 45)]) ∧
    ∃ once, (pruner {}).compact relapsing 1 = .ok once ∧
      (pruner {}).compact once.messages 1 = .ok ⟨once.messages, .empty⟩ := by
  have hprunable : ∀ m ∈ relapsing, m.Prunable := by
    intro m hm
    rcases List.mem_append.1 hm with hm | hm
    · rcases List.mem_append.1 hm with hm | hm
      · exact History.prunable_of_mem_errand (by omega) m hm
      · exact History.prunable_of_mem_errand (by omega) m hm
    · exact History.prunable_of_mem_errand (by omega) m hm
  have htext : ∀ m ∈ relapsing, m.TextResults := fun m hm => (hprunable m hm).textResults
  have hfits : FitsMemory relapsing := fun m hm call hcall => (hprunable m hm call hcall).fits
  constructor
  · obtain ⟨hruns, hsecond⟩ := compact_again ⟨10, 500⟩ relapsing 1 htext
    obtain ⟨once, honce⟩ := hruns hfits
    obtain ⟨again, hagain, -, -, -, hentries, -⟩ := hsecond once honce
    refine ⟨once, again, honce, hagain, ?_⟩
    have hfront : relapsing.take (Window.start relapsing 1)
        = History.errand 201 false ++ History.errand 600 true := by
      have hstart : Window.start relapsing 1 = 4 := by decide +kernel
      rw [hstart]
      rfl
    have hlong : Pruner.Relapses ⟨10, 500⟩ (errandCall 201 false)
        (String.ofList (List.replicate 201 'x')) := by
      rw [Pruner.relapses_iff_size rfl, length_errandCall]
      decide +kernel
    have herror : ∀ text, ¬ Pruner.Relapses ⟨10, 500⟩ (errandCall 600 true) text := by
      intro text hrelapses
      obtain rfl := Json.string.inj hrelapses.result
      refine hrelapses.uncut ⟨rfl, ?_⟩
      rw [length_errandCall]
      decide
    have hfirst : Pruner.relapseEntry? ⟨10, 500⟩ 1 (errandCall 201 false) = _ :=
      Pruner.relapseEntry?_eq_some 1 hlong
    rw [hentries, hfront, relapseEntries_errands, List.filterMap_cons_some hfirst,
      List.filterMap_cons_none (Pruner.relapseEntry?_eq_none 3 herror), length_errandCall]
    decide +kernel
  · obtain ⟨hruns, hsecond⟩ := compact_again {} relapsing 1 htext
    obtain ⟨once, honce⟩ := hruns hfits
    obtain ⟨again, hagain, -, -, -, -, hsame⟩ := hsecond once honce
    exact ⟨once, honce, hsame rfl hprunable ▸ hagain⟩

end Pass

end Parley
