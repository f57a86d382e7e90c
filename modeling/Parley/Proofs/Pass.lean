import Parley.Pass
import Parley.Proofs.Message
set_option autoImplicit false

/-! # What a pass does

On a conversation of texts no strategy fails. What it does is then a rewriting of single tool calls:
`Strategy.rewriteCall` puts the new text in place of the result, and `Strategy.compactFrom` applies
this to the messages before the boundary and keeps the others (`Strategy.compactFrom_eq`). A new
text is always shorter than the one whose place it takes, so rewriting shrinks. -/

namespace Parley

/-! ## The rules on texts -/

namespace Pruner

theorem ifShorter_eq_some {size : Nat} {replacement text : String}
    (h : ifShorter size replacement = some text) : text = replacement ∧ text.length < size := by
  unfold ifShorter at h
  split_ifs at h with hlt
  simp only [Option.some.injEq] at h
  exact ⟨h.symm, h ▸ hlt⟩

theorem length_lt_of_cutError {p : Pruner} {old text : String} (h : p.cutError old = some text) :
    text.length < old.length := by
  unfold cutError at h
  split_ifs at h
  exact (ifShorter_eq_some h).2

/-- A pruner does not fail on a text or null, and what it puts in place is shorter. -/
theorem replacement?_of_isTextual (p : Pruner) {call : ToolCall}
    (h : call.result.isTextual = true) :
    ∃ new, p.replacement? call = .ok new ∧
      ∀ text, new = some text → text.length < call.result.textSize := by
  rcases Json.textual_cases h with hnull | ⟨old, hold⟩
  · exact ⟨none, by simp [replacement?, hnull], by simp⟩
  · simp only [replacement?, hold, reduceCtorEq, if_false, Json.size?, Json.text?, Json.textSize]
    split_ifs with herror hlong
    · exact ⟨_, rfl, fun text htext => length_lt_of_cutError htext⟩
    · exact ⟨_, rfl, fun text htext => (ifShorter_eq_some htext).2⟩
    · exact ⟨none, rfl, by simp⟩

end Pruner

namespace Strategy

/-- The text that takes the place of a result, if one does. -/
def newText? (s : Strategy) (call : ToolCall) : Option String :=
  match s.replacement? call with
  | .ok new => new
  | .error _ => none

theorem replacement?_of_isTextual (s : Strategy) {call : ToolCall}
    (h : call.result.isTextual = true) :
    ∃ new, s.replacement? call = .ok new ∧
      ∀ text, new = some text → text.length < call.result.textSize := by
  cases s with
  | prune pruner => exact pruner.replacement?_of_isTextual h
  | watch => exact ⟨none, rfl, by simp⟩
  | replace stub =>
      rcases Json.textual_cases h with hnull | ⟨old, hold⟩
      · exact ⟨none, by simp [replacement?, hnull], by simp⟩
      · simp only [replacement?, hold, reduceCtorEq, if_false, Json.size?, Json.textSize]
        exact ⟨_, rfl, fun text htext => (Pruner.ifShorter_eq_some htext).2⟩

theorem replacement?_eq (s : Strategy) {call : ToolCall} (h : call.result.isTextual = true) :
    s.replacement? call = .ok (s.newText? call) := by
  obtain ⟨new, hnew, -⟩ := s.replacement?_of_isTextual h
  simp only [newText?, hnew]

theorem length_newText?_lt {s : Strategy} {call : ToolCall} {text : String}
    (h : call.result.isTextual = true) (hnew : s.newText? call = some text) :
    text.length < call.result.textSize := by
  obtain ⟨new, hok, hlt⟩ := s.replacement?_of_isTextual h
  simp only [newText?, hok] at hnew
  exact hlt text hnew

/-- Only a text gets a new text. -/
theorem exists_text_of_newText? {s : Strategy} {call : ToolCall} {text : String}
    (h : call.result.isTextual = true) (hnew : s.newText? call = some text) :
    ∃ old, call.result = .string old ∧ text.length < old.length := by
  have hlt := length_newText?_lt h hnew
  rcases Json.textual_cases h with hnull | ⟨old, hold⟩
  · rw [hnull] at hlt
    exact absurd hlt (Nat.not_lt_zero _)
  · rw [hold] at hlt
    exact ⟨old, hold, hlt⟩

/-! ## Rewriting -/

/-- A tool call with its new text. -/
def rewriteCall (s : Strategy) (call : ToolCall) : ToolCall :=
  match s.newText? call with
  | some text => { call with result := .string text }
  | none => call

/-- The entry for a tool call of the message at some index, if the call gets a new text. -/
def entryFor? (s : Strategy) (index : Nat) (call : ToolCall) : Option Entry :=
  (s.newText? call).map fun text => {
    messageIndex := index
    toolCallId := call.id
    toolName := call.name
    action := Entry.truncated
    sizeBefore := call.result.textSize
    sizeAfter := text.length }

/-- A message with the new texts. -/
def rewrite (s : Strategy) (m : Message) : Message :=
  if s.reaches m then { m with toolCalls := m.toolCalls.map s.rewriteCall } else m

/-- The entries for the message at some index. -/
def entriesAt (s : Strategy) (index : Nat) (m : Message) : List Entry :=
  if s.reaches m then m.toolCalls.filterMap (s.entryFor? index) else []

/-- The entries for messages from some index on. -/
def entriesFrom (s : Strategy) : Nat → List Message → List Entry
  | _, [] => []
  | index, m :: rest => s.entriesAt index m ++ s.entriesFrom (index + 1) rest

/-! ## Compaction is rewriting -/

theorem compactCall_eq (s : Strategy) (index : Nat) {call : ToolCall}
    (h : call.result.isTextual = true) :
    s.compactCall index call = .ok (s.rewriteCall call, (s.entryFor? index call).toList) := by
  simp only [compactCall, s.replacement?_eq h, bind, Except.bind]
  cases hnew : s.newText? call with
  | none => simp [rewriteCall, entryFor?, hnew, pure, Except.pure]
  | some text =>
      obtain ⟨old, hold, -⟩ := exists_text_of_newText? h hnew
      simp [rewriteCall, entryFor?, hnew, hold, Json.size?, Json.textSize, pure, Except.pure]

theorem compactCalls_eq (s : Strategy) (index : Nat) {calls : List ToolCall}
    (h : ∀ call ∈ calls, call.result.isTextual = true) :
    s.compactCalls index calls
      = .ok (calls.map s.rewriteCall, calls.filterMap (s.entryFor? index)) := by
  induction calls with
  | nil => rfl
  | cons call rest ih =>
      have hrest := ih fun other hother => h other (List.mem_cons_of_mem _ hother)
      simp only [compactCalls, s.compactCall_eq index (h call List.mem_cons_self), hrest, bind,
        Except.bind, pure, Except.pure, List.map_cons, List.filterMap_cons]
      cases s.entryFor? index call <;> rfl

theorem compactMessage_eq (s : Strategy) (index : Nat) {m : Message} (h : m.TextResults) :
    s.compactMessage index m = .ok (s.rewrite m, s.entriesAt index m) := by
  unfold compactMessage rewrite entriesAt
  split_ifs
  · simp only [s.compactCalls_eq index h, bind, Except.bind, pure, Except.pure]
  · rfl

/-- On a conversation of texts a strategy rewrites the messages before the boundary. -/
theorem compactFrom_eq (s : Strategy) (boundary index : Nat) {messages : List Message}
    (h : ∀ m ∈ messages, m.TextResults) :
    s.compactFrom boundary index messages
      = .ok ((messages.take (boundary - index)).map s.rewrite ++ messages.drop (boundary - index),
          s.entriesFrom index (messages.take (boundary - index))) := by
  induction messages generalizing index with
  | nil => simp [compactFrom, entriesFrom]
  | cons m rest ih =>
      unfold compactFrom
      split_ifs with hindex
      · have hnone : boundary - index = 0 := by omega
        simp [hnone, entriesFrom]
      · obtain ⟨left, hleft⟩ := Nat.exists_eq_succ_of_ne_zero (show boundary - index ≠ 0 by omega)
        have hnext : boundary - (index + 1) = left := by omega
        have hrest := ih (index + 1) fun other hother => h other (List.mem_cons_of_mem _ hother)
        rw [hnext] at hrest
        simp only [s.compactMessage_eq index (h m List.mem_cons_self), hrest, bind, Except.bind,
          pure, Except.pure, hleft, List.take_succ_cons, List.drop_succ_cons, List.map_cons,
          List.cons_append, entriesFrom]

/-! ## Rewriting shrinks -/

theorem shrunk_rewriteCall (s : Strategy) {call : ToolCall} (h : call.result.isTextual = true) :
    call.Shrunk (s.rewriteCall call) := by
  unfold rewriteCall
  cases hnew : s.newText? call with
  | none => exact ToolCall.Shrunk.refl call
  | some text =>
      obtain ⟨old, hold, hlt⟩ := exists_text_of_newText? h hnew
      refine ⟨rfl, rfl, rfl, rfl, ?_⟩
      rw [hold]
      exact .shorter hlt

theorem shrunk_rewrite (s : Strategy) {m : Message} (h : m.TextResults) :
    m.Shrunk (s.rewrite m) := by
  unfold rewrite
  split_ifs
  · refine ⟨rfl, rfl, List.forall₂_map_right_iff.2 (List.forall₂_same.2 ?_)⟩
    exact fun call hcall => s.shrunk_rewriteCall (h call hcall)
  · exact Message.Shrunk.refl m

theorem rewriteCall_eq_self_iff {s : Strategy} {call : ToolCall}
    (h : call.result.isTextual = true) : s.rewriteCall call = call ↔ s.newText? call = none := by
  unfold rewriteCall
  cases hnew : s.newText? call with
  | none => simp
  | some text =>
      have hlt := length_newText?_lt h hnew
      simp only [reduceCtorEq, iff_false]
      intro heq
      have hresult : call.result = .string text := (congrArg ToolCall.result heq).symm
      rw [hresult] at hlt
      exact absurd hlt (Nat.lt_irrefl _)

/-- A conversation whose messages before the boundary are rewritten. -/
def compacted (s : Strategy) (boundary : Nat) (messages : List Message) : List Message :=
  (messages.take boundary).map s.rewrite ++ messages.drop boundary

theorem shrunk_compacted (s : Strategy) (boundary : Nat) {messages : List Message}
    (h : ∀ m ∈ messages, m.TextResults) :
    List.Forall₂ Message.Shrunk messages (s.compacted boundary messages) := by
  conv_lhs => rw [← List.take_append_drop boundary messages]
  refine List.rel_append ?_ ?_
  · refine List.forall₂_map_right_iff.2 (List.forall₂_same.2 fun m hm => ?_)
    exact s.shrunk_rewrite (h m (List.mem_of_mem_take hm))
  · exact List.forall₂_same.2 fun m _ => Message.Shrunk.refl m

theorem drop_compacted (s : Strategy) {boundary : Nat} {messages : List Message}
    (h : boundary ≤ messages.length) :
    (s.compacted boundary messages).drop boundary = messages.drop boundary := by
  have hlength : ((messages.take boundary).map s.rewrite).length = boundary := by simp [h]
  rw [compacted, List.drop_left' hlength]

/-! ## Entries -/

theorem mem_entriesFrom {s : Strategy} {index : Nat} {messages : List Message} {e : Entry} :
    e ∈ s.entriesFrom index messages
      ↔ ∃ i m, messages[i]? = some m ∧ e ∈ s.entriesAt (index + i) m := by
  induction messages generalizing index with
  | nil => simp [entriesFrom]
  | cons m rest ih =>
      rw [entriesFrom, List.mem_append, ih]
      constructor
      · rintro (he | ⟨i, other, hother, he⟩)
        · exact ⟨0, m, rfl, he⟩
        · exact ⟨i + 1, other, hother, by rwa [← Nat.add_right_comm] at he⟩
      · rintro ⟨i, other, hother, he⟩
        cases i with
        | zero =>
            simp only [List.getElem?_cons_zero, Option.some.injEq] at hother
            exact Or.inl (hother ▸ he)
        | succ i => exact Or.inr ⟨i, other, hother, by rwa [← Nat.add_right_comm]⟩

theorem entriesFrom_append (s : Strategy) (index : Nat) (messages later : List Message) :
    s.entriesFrom index (messages ++ later)
      = s.entriesFrom index messages ++ s.entriesFrom (index + messages.length) later := by
  induction messages generalizing index with
  | nil => rfl
  | cons m rest ih =>
      rw [List.cons_append, entriesFrom, ih, entriesFrom, List.append_assoc, List.length_cons,
        Nat.add_assoc, Nat.add_comm 1]

/-- An entry is about a tool call of the message at its index. -/
theorem exists_call_of_mem_entriesAt {s : Strategy} {index : Nat} {m : Message} {e : Entry}
    (h : e ∈ s.entriesAt index m) : ∃ call ∈ m.toolCalls, s.entryFor? index call = some e := by
  unfold entriesAt at h
  split_ifs at h
  · exact List.mem_filterMap.1 h
  · exact absurd h (by simp)

theorem sizes_of_entryFor? {s : Strategy} {index : Nat} {call : ToolCall} {e : Entry}
    (h : call.result.isTextual = true) (he : s.entryFor? index call = some e) :
    e.messageIndex = index ∧ e.sizeBefore = call.result.textSize
      ∧ 0 ≤ e.sizeAfter ∧ e.sizeAfter < e.sizeBefore := by
  obtain ⟨text, hnew, rfl⟩ := Option.map_eq_some_iff.1 he
  have hlt := length_newText?_lt h hnew
  refine ⟨rfl, rfl, ?_, ?_⟩ <;> simp only <;> omega

end Strategy

/-! ## A pass -/

namespace Pass

/-- What a pass reports about a conversation. -/
def entries (p : Pass) (messages : List Message) (window : Int) : List Entry :=
  p.strategy.entriesFrom 0 (messages.take (Window.start messages window))

/-- A run of a pass over a conversation of texts: the messages are rewritten up to the window, and
    the tokens saved by the entries are all that can be missing. -/
theorem compact_eq_ok_iff {p : Pass} {messages : List Message} {window : Int} {done : Compaction}
    (h : ∀ m ∈ messages, m.TextResults) :
    p.compact messages window = .ok done ↔
      done.messages = p.strategy.compacted (Window.start messages window) messages ∧
      done.report.entries = p.entries messages window ∧
      done.report.passesRun = (if (p.entries messages window).isEmpty then [] else [p.name]) ∧
      Entry.tokensSaved (p.entries messages window) = .ok done.report.tokensSaved := by
  obtain ⟨messages', report⟩ := done
  obtain ⟨passesRun, entries', saved'⟩ := report
  simp only [compact, p.strategy.compactFrom_eq _ 0 h, Nat.sub_zero, bind, Except.bind, entries,
    Strategy.compacted]
  cases Entry.tokensSaved (p.strategy.entriesFrom 0
      (messages.take (Window.start messages window))) with
  | error fault => simp
  | ok saved =>
      simp only [pure, Except.pure, Except.ok.injEq, Compaction.mk.injEq, Report.mk.injEq]
      constructor
      · rintro ⟨rfl, rfl, rfl, rfl⟩
        exact ⟨rfl, rfl, rfl, rfl⟩
      · rintro ⟨rfl, rfl, rfl, rfl⟩
        exact ⟨rfl, rfl, rfl, rfl⟩

end Pass

end Parley
