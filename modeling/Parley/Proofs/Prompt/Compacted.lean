import Parley.Prompt.Buffer
import Parley.Proofs.Pipeline.Frame
set_option autoImplicit false

/-! # The prompt of a conversation that was compacted

A message of a conversation becomes no, one or two prompt messages, depending on whether it has a
text and which of its results are there. Compaction shrinks results and makes none of them appear or
disappear, so a message that was shrunk becomes as many prompt messages as before
(`ofMessage_shrunk`), with the same blocks except for shorter texts of results.

Each prompt message is followed back to the message that it comes from (`origins`). In this way what
the window protects in the conversation is protected in the prompt. -/

namespace Parley.Prompt

/-! ## Prompts that shrink -/

/-- A block that stays as it is, or a result whose text gives way to a shorter one. -/
inductive BlockShrunk : Json → Json → Prop
  | same (block : Json) : BlockShrunk block block
  | shorter (id : Json) (isError : Bool) {old new : String} (h : new.length < old.length) :
      BlockShrunk (toolResultBlock id (.string old) isError)
        (toolResultBlock id (.string new) isError)

/-- A prompt message that stays as it is, or one with as many blocks, each shrunk at most. -/
inductive EntryShrunk : Json → Json → Prop
  | same (message : Json) : EntryShrunk message message
  | blocks (role : String) {before after : List Json} (h : List.Forall₂ BlockShrunk before after) :
      EntryShrunk (entry role (.array before)) (entry role (.array after))

theorem EntryShrunk.role_eq {before after : Json} (h : EntryShrunk before after) :
    after.field? "role" = before.field? "role" := by
  cases h <;> rfl

/-! ## One message -/

/-- Shrinking makes no result appear or disappear. -/
theorem result_eq_null_iff {before after : ToolCall} (h : before.Shrunk after) :
    after.result = .null ↔ before.result = .null := by
  have hresult := h.result
  revert hresult
  generalize before.result = old, after.result = new
  intro hresult
  cases hresult <;> simp

theorem blockShrunk_of_shrunk {before after : ToolCall} (h : before.Shrunk after) :
    BlockShrunk (toolResultBlock before.id before.result before.isError)
      (toolResultBlock after.id after.result after.isError) := by
  rw [h.id, h.isError]
  have hresult := h.result
  revert hresult
  generalize before.result = old, after.result = new
  intro hresult
  cases hresult with
  | same => exact .same _
  | shorter hlt => exact .shorter _ _ hlt

theorem resultBlocks_shrunk {before after : List ToolCall}
    (h : List.Forall₂ ToolCall.Shrunk before after) :
    List.Forall₂ BlockShrunk (resultBlocks before) (resultBlocks after) := by
  unfold resultBlocks
  rw [List.forall₂_map_left_iff, List.forall₂_map_right_iff]
  refine (List.rel_filter ?_ h).imp fun _ _ hcall => blockShrunk_of_shrunk hcall
  intro old new hcall
  simpa using not_congr (result_eq_null_iff hcall).symm

theorem assistantBlocks_eq {before after : Message} (h : before.Shrunk after) :
    assistantBlocks after = assistantBlocks before := by
  unfold assistantBlocks
  rw [h.content]
  congr 1
  refine Pointwise.map_eq ?_ h.toolCalls
  intro old new hcall
  rw [hcall.id, hcall.name, hcall.args]

theorem entryOfBlocks_shrunk (role : String) {before after : List Json}
    (h : List.Forall₂ BlockShrunk before after) :
    List.Forall₂ EntryShrunk (entryOfBlocks role before) (entryOfBlocks role after) := by
  cases h with
  | nil => exact .nil
  | cons hblock hrest => exact .cons (.blocks role (.cons hblock hrest)) .nil

/-- A message that was shrunk becomes as many prompt messages as before, each shrunk at most. -/
theorem ofMessage_shrunk {before after : Message} (h : before.Shrunk after) :
    List.Forall₂ EntryShrunk (ofMessage before) (ofMessage after) := by
  unfold ofMessage Message.isUser
  rw [h.role, h.content, assistantBlocks_eq h]
  split
  · exact .cons (.same _) .nil
  · exact List.rel_append (List.forall₂_same.2 fun message _ => .same message)
      (entryOfBlocks_shrunk "user" (resultBlocks_shrunk h.toolCalls))

/-! ## Whole prompts -/

/-- The prompt messages of a conversation, each with the index of the message that it comes from.
    The first message has the index given. -/
def originsFrom (index : Nat) (messages : List Message) : List (Nat × Json) :=
  (messages.zipIdx index).flatMap fun (m, i) => (ofMessage m).map fun message => (i, message)

/-- The prompt of a conversation, each of its messages with the index of the message that it comes
    from. -/
def origins (messages : List Message) : List (Nat × Json) :=
  originsFrom 0 messages

theorem originsFrom_cons (index : Nat) (m : Message) (rest : List Message) :
    originsFrom index (m :: rest)
      = (ofMessage m).map (fun message => (index, message)) ++ originsFrom (index + 1) rest := by
  simp [originsFrom]

theorem map_snd_originsFrom (index : Nat) (messages : List Message) :
    (originsFrom index messages).map Prod.snd = ofMessages messages := by
  induction messages generalizing index with
  | nil => rfl
  | cons m rest ih =>
      rw [originsFrom_cons, List.map_append, ih]
      simp [ofMessages, Function.comp_def]

/-- Two prompt messages come from the same message of a conversation, the second one is the first one
    shrunk at most, and it is the same one if it comes from the window. -/
structure Aligned (start : Nat) (before after : Nat × Json) : Prop where
  index : after.1 = before.1
  shrunk : EntryShrunk before.2 after.2
  kept : start ≤ before.1 → after.2 = before.2

theorem originsFrom_aligned {start : Nat} {before after : List Message}
    (h : List.Forall₂ Message.Shrunk before after) {index : Nat}
    (hkept : ∀ i m m', before[i]? = some m → after[i]? = some m' → start ≤ index + i → m' = m) :
    List.Forall₂ (Aligned start) (originsFrom index before) (originsFrom index after) := by
  induction h generalizing index with
  | nil => exact .nil
  | @cons m m' _ _ hm _ ih =>
      rw [originsFrom_cons, originsFrom_cons]
      refine List.rel_append ?_ (ih ?_)
      · rw [List.forall₂_map_left_iff, List.forall₂_map_right_iff]
        by_cases hstart : start ≤ index
        · rw [hkept 0 m m' rfl rfl hstart]
          exact List.forall₂_same.2 fun message _ => ⟨rfl, .same message, fun _ => rfl⟩
        · refine (ofMessage_shrunk hm).imp fun _ _ hshrunk => ⟨rfl, hshrunk, ?_⟩
          intro hle
          exact absurd hle hstart
      · intro i old new hold hnew hle
        exact hkept (i + 1) old new hold hnew (by omega)

/-- **The prompt of a compacted conversation.** Whatever passes a pipeline has, what it returns is put
    to a model in as many messages as what it was given, in the same roles. Every message comes from
    the same message of the conversation as before, and is the same except for results whose text
    gave way to a shorter one; if it comes from the window, it is the same altogether. A pipeline
    does return on results that fit in a memory. -/
theorem compacted_prompt (pipeline : Pipeline) (messages : List Message) (o : Occupancy)
    (htext : ∀ m ∈ messages, m.TextResults) :
    (∀ done, pipeline.run messages o = .ok done →
      (ofMessages done.messages).length = (ofMessages messages).length ∧
        (ofMessages done.messages).map (Json.field? "role")
          = (ofMessages messages).map (Json.field? "role") ∧
        (origins messages).map Prod.snd = ofMessages messages ∧
        (origins done.messages).map Prod.snd = ofMessages done.messages ∧
        List.Forall₂ (Aligned (Window.start messages o.window)) (origins messages)
          (origins done.messages)) ∧
    ∀ ratio, o.ratio = .ok ratio → FitsMemory messages →
      ∃ done, pipeline.run messages o = .ok done := by
  constructor
  · intro done hdone
    obtain ⟨ratio, hratio⟩ : ∃ ratio, o.ratio = .ok ratio := by
      cases hratio : o.ratio with
      | ok ratio => exact ⟨ratio, rfl⟩
      | error fault => simp [Pipeline.run, hratio, bind, Except.bind] at hdone
    rw [Pipeline.run_eq_runPasses hratio] at hdone
    have hframe := Pipeline.runPasses_frame htext hdone
    have haligned : List.Forall₂ (Aligned (Window.start messages o.window)) (origins messages)
        (origins done.messages) := by
      apply originsFrom_aligned hframe.shrunk
      intro i m m' hm hm' hstart
      obtain ⟨new, hnew, -, hsame⟩ := hframe.getElem? hm
      rw [hm', Option.some.injEq] at hnew
      rw [hnew]
      exact hsame (by simpa using hstart)
    have hmessages := map_snd_originsFrom 0 messages
    have hcompacted := map_snd_originsFrom 0 done.messages
    refine ⟨?_, ?_, hmessages, hcompacted, haligned⟩
    · rw [← hmessages, ← hcompacted, List.length_map, List.length_map]
      exact haligned.length_eq.symm
    · rw [← hmessages, ← hcompacted, List.map_map, List.map_map]
      exact Pointwise.map_eq (fun _ _ h => h.shrunk.role_eq) haligned
  · intro ratio hratio hfits
    rw [Pipeline.run_eq_runPasses hratio]
    exact Pipeline.runPasses_isOk _ _ _ htext hfits

/-- The long results of an answer are shortened in the second one of its two prompt messages. -/
theorem compacted_prompt_exchange :
    ∃ done, Pipeline.twoPasses.run Pipeline.exchange ⟨1, 2, 1⟩ = .ok done ∧
      ofMessages done.messages ≠ ofMessages Pipeline.exchange ∧
      (ofMessages done.messages).length = 4 ∧
      (origins done.messages).map Prod.fst = [0, 1, 1, 2] := by
  have htext : ∀ m ∈ Pipeline.exchange, m.TextResults := by decide +kernel
  have hfits : FitsMemory Pipeline.exchange := by
    unfold FitsMemory
    decide +kernel
  have hratio : (Occupancy.mk 1 2 1).ratio = .ok (.finite false 4503599627370496 (-53)) := by
    decide +kernel
  have hchanged : (Pipeline.twoPasses.run Pipeline.exchange ⟨1, 2, 1⟩).map
      (fun done => ofMessages done.messages) ≠ .ok (ofMessages Pipeline.exchange) := by
    decide +kernel
  obtain ⟨hprompt, hruns⟩ := compacted_prompt Pipeline.twoPasses Pipeline.exchange ⟨1, 2, 1⟩ htext
  obtain ⟨done, hdone⟩ := hruns _ hratio hfits
  obtain ⟨hlength, -, -, -, haligned⟩ := hprompt done hdone
  refine ⟨done, hdone, ?_, hlength.trans (by decide +kernel), ?_⟩
  · intro heq
    rw [hdone] at hchanged
    exact hchanged (congrArg Except.ok heq)
  · have horigins : (origins Pipeline.exchange).map Prod.fst = [0, 1, 1, 2] := by decide +kernel
    exact (Pointwise.map_eq (fun _ _ h => h.index) haligned).trans horigins

end Parley.Prompt
