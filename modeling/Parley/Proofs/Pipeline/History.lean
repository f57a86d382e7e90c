import Parley.Proofs.Pipeline.Frame
import Parley.Proofs.Pruner
set_option autoImplicit false

/-! # Compaction in the course of a conversation

A conversation grows, and the standard pipeline runs over it now and then, on what its earlier runs
left. Early and late runs agree because pruning a message again changes nothing
(`standardPruning.rewrite_again`): at any time the current messages and the original ones are the
same after pruning, and they are the same from the window on (`History.Follows`). The window only
moves forward, so what a run has not reached yet is still there in its original form. -/

namespace Parley

/-! ## What pruning settles -/

/-- The pruner of the standard pipeline. -/
def standardPruning : Strategy := .prune {}

/-- A tool call with a text or null for a result, which fits in a memory, and with a name of at most
    1400 characters. -/
structure ToolCall.Prunable (call : ToolCall) : Prop where
  textual : call.result.isTextual = true
  fits : call.result.textSize < 2 ^ 63
  name : call.name.display.length ≤ 1400

/-- All tool calls of a message are prunable. -/
def Message.Prunable (m : Message) : Prop :=
  ∀ call ∈ m.toolCalls, call.Prunable

theorem Message.Prunable.textResults {m : Message} (h : m.Prunable) : m.TextResults :=
  fun call hcall => (h call hcall).textual

theorem Message.Prunable.of_shrunk {before after : Message} (h : before.Prunable)
    (hshrunk : before.Shrunk after) : after.Prunable := by
  intro call hcall
  obtain ⟨old, hold, hcallShrunk⟩ := Pointwise.exists_of_mem hshrunk.toolCalls hcall
  have hprunable := h old hold
  refine ⟨?_, ?_, ?_⟩
  · rw [hcallShrunk.result.isTextual_eq]
    exact hprunable.textual
  · rcases hcallShrunk.result.eq_or_lt with heq | hlt
    · exact heq ▸ hprunable.fits
    · exact hlt.trans hprunable.fits
  · rw [hcallShrunk.name]
    exact hprunable.name

/-- A result that was pruned does not get another text. -/
theorem standardPruning.rewriteCall_again {call : ToolCall} (h : call.Prunable) :
    standardPruning.rewriteCall (standardPruning.rewriteCall call)
      = standardPruning.rewriteCall call := by
  cases hnew : standardPruning.newText? call with
  | none =>
      have hsame := (Strategy.rewriteCall_eq_self_iff h.textual).2 hnew
      rw [hsame, hsame]
  | some new =>
      obtain ⟨old, hold, -⟩ := Strategy.exists_text_of_newText? h.textual hnew
      have hfits := h.fits
      simp only [hold, Json.textSize] at hfits
      have hok := standardPruning.replacement?_eq h.textual
      rw [hnew] at hok
      have hplaceholder := Pruner.length_placeholder_le hfits h.name
      have hagain := Pruner.replacement?_again hold hok (Int.ofNat_le.2 hplaceholder)
      have hrewritten : standardPruning.rewriteCall call
          = { call with result := .string new } := by
        simp only [Strategy.rewriteCall, hnew]
      rw [hrewritten]
      refine (Strategy.rewriteCall_eq_self_iff rfl).2 ?_
      simp only [Strategy.newText?, standardPruning, Strategy.replacement?, hagain]

theorem standardPruning.rewrite_again {m : Message} (h : m.Prunable) :
    standardPruning.rewrite (standardPruning.rewrite m) = standardPruning.rewrite m := by
  unfold Strategy.rewrite
  by_cases hreach : standardPruning.reaches m = true
  · have hreach' : standardPruning.reaches
        { m with toolCalls := m.toolCalls.map standardPruning.rewriteCall } = true := hreach
    simp only [hreach, hreach', if_true, List.map_map, Message.mk.injEq, true_and]
    exact List.map_congr_left fun call hcall => standardPruning.rewriteCall_again (h call hcall)
  · simp only [hreach, Bool.false_eq_true, if_false]

/-! ## One run -/

theorem Strategy.isUser_rewrite (s : Strategy) (m : Message) :
    (s.rewrite m).isUser = m.isUser := by
  unfold rewrite
  split_ifs <;> rfl

namespace Pipeline

theorem standard_eq : standard = [Pass.pruner {}] := rfl

/-- A run of the standard pipeline prunes what stands before the window if it is active, and changes
    nothing otherwise. -/
theorem run_standard {messages : List Message} {o : Occupancy} {ratio : Binary64}
    (h : ∀ m ∈ messages, m.Prunable) (hratio : o.ratio = .ok ratio) :
    ∃ done, standard.run messages o = .ok done ∧
      done.messages = if standard.active (.float ratio) = [] then messages
        else standardPruning.compacted (Window.start messages o.window) messages := by
  have htext : ∀ m ∈ messages, m.TextResults := fun m hm => (h m hm).textResults
  have hfits : FitsMemory messages := fun m hm call hcall => (h m hm call hcall).fits
  rw [run_eq_runPasses hratio]
  by_cases hactive : standard.active (.float ratio) = []
  · rw [hactive, if_pos rfl]
    exact ⟨_, rfl, rfl⟩
  · have honly : standard.active (.float ratio) = [Pass.pruner {}] := by
      simp only [active, standard_eq, List.filter_cons, List.filter_nil] at hactive ⊢
      split_ifs at hactive ⊢
      · rfl
      · exact absurd rfl hactive
    obtain ⟨done, hdone⟩ := (Pass.pruner {}).compact_isOk o.window htext hfits
    have hmessages := ((Pass.compact_eq_ok_iff htext).1 hdone).1
    rw [if_neg hactive, honly, runPasses_single, hdone]
    exact ⟨done, rfl, hmessages⟩

end Pipeline

/-! ## Histories -/

namespace History

/-- What can happen to a conversation. -/
inductive Step
  /-- Messages come in. -/
  | append (added : List Message)
  /-- The standard pipeline runs at some usage of some limit. -/
  | run (usage limit : Int)
deriving DecidableEq

namespace Step

/-- The conversation after a step. Where a run fails, the conversation stays as it was. -/
def apply (window : Int) (messages : List Message) : Step → List Message
  | .append added => messages ++ added
  | .run usage limit =>
      match Pipeline.standard.run messages ⟨usage, limit, window⟩ with
      | .ok done => done.messages
      | .error _ => messages

/-- The messages that come in with a step. -/
def added : Step → List Message
  | .append added => added
  | .run _ _ => []

end Step

/-- The conversation after some steps. -/
def replay (window : Int) (steps : List Step) : List Message :=
  steps.foldl (Step.apply window) []

/-- All the messages that came in, in their original form. -/
def appended (steps : List Step) : List Message :=
  steps.flatMap Step.added

/-- A conversation that is the original one up to pruning, and the same from the window on. -/
structure Follows (window : Int) (original current : List Message) : Prop where
  rewritten : current.map standardPruning.rewrite = original.map standardPruning.rewrite
  kept : current.drop (Window.start original window) = original.drop (Window.start original window)
  prunable : ∀ m ∈ current, m.Prunable

namespace Follows

variable {window : Int} {original current : List Message}

theorem start_eq (h : Follows window original current) :
    Window.start current window = Window.start original window := by
  refine Window.start_eq_of_isUser window ?_
  have husers := congrArg (List.map Message.isUser) h.rewritten
  simpa only [List.map_map, Function.comp_def, Strategy.isUser_rewrite] using husers

/-- The window moves forward, and the messages that it still holds are original. -/
theorem append (h : Follows window original current) {added : List Message}
    (hadded : ∀ m ∈ added, m.Prunable) :
    Follows window (original ++ added) (current ++ added) where
  rewritten := by rw [List.map_append, List.map_append, h.rewritten]
  kept := by
    have hlength : current.length = original.length := by
      simpa using congrArg List.length h.rewritten
    -- the window starts `further` messages later, and all it holds was kept before
    obtain ⟨further, hfurther⟩ :=
      Nat.exists_eq_add_of_le (Window.start_le_start_append original added window)
    rw [List.drop_append, List.drop_append, hlength, hfurther, ← List.drop_drop, ← List.drop_drop,
      h.kept]
  prunable m hm := by
    rcases List.mem_append.1 hm with hcurrent | hnew
    · exact h.prunable m hcurrent
    · exact hadded m hnew

theorem compacted (h : Follows window original current) :
    Follows window original
      (standardPruning.compacted (Window.start current window) current) where
  rewritten := by
    rw [← h.rewritten, Strategy.compacted, List.map_append, List.map_map]
    conv_rhs => rw [← List.take_append_drop (Window.start current window) current, List.map_append]
    congr 1
    refine List.map_congr_left fun m hm => ?_
    exact standardPruning.rewrite_again (h.prunable m (List.mem_of_mem_take hm))
  kept := by
    have hlength := Window.start_le_length current window
    rw [← h.start_eq, standardPruning.drop_compacted hlength, h.start_eq, h.kept]
  prunable m hm := by
    have htext : ∀ m ∈ current, m.TextResults := fun m hm => (h.prunable m hm).textResults
    obtain ⟨old, hold, hshrunk⟩ :=
      Pointwise.exists_of_mem (standardPruning.shrunk_compacted _ htext) hm
    exact (h.prunable old hold).of_shrunk hshrunk

/-- Pruning up to the window makes the current conversation what it makes the original one. -/
theorem compacted_eq (h : Follows window original current) :
    standardPruning.compacted (Window.start current window) current
      = standardPruning.compacted (Window.start original window) original := by
  rw [Strategy.compacted, Strategy.compacted, List.map_take, List.map_take, h.rewritten, h.start_eq,
    h.kept]

theorem apply (h : Follows window original current) {step : Step}
    (hadded : ∀ m ∈ step.added, m.Prunable) :
    Follows window (original ++ step.added) (step.apply window current) := by
  cases step with
  | append added => exact h.append hadded
  | run usage limit =>
      rw [Step.added, List.append_nil]
      cases hratio : (Occupancy.mk usage limit window).ratio with
      | error fault =>
          -- without a ratio the run fails, and the conversation stays as it was
          simpa only [Step.apply, Pipeline.run, hratio, bind, Except.bind] using h
      | ok ratio =>
          obtain ⟨done, hdone, hmessages⟩ := Pipeline.run_standard h.prunable hratio
          simp only [Step.apply, hdone, hmessages]
          split_ifs
          · exact h
          · exact h.compacted

/-- Whatever happens to a conversation that follows what came in, it still does. -/
theorem replay {steps : List Step} (h : Follows window original current)
    (hadded : ∀ m ∈ appended steps, m.Prunable) :
    Follows window (original ++ appended steps) (steps.foldl (Step.apply window) current) := by
  induction steps generalizing original current with
  | nil =>
      rw [appended, List.flatMap_nil, List.append_nil]
      exact h
  | cons step rest ih =>
      rw [appended, List.flatMap_cons] at hadded ⊢
      rw [List.foldl_cons, ← List.append_assoc]
      refine ih (h.apply fun m hm => ?_) fun m hm => ?_
      · exact hadded m (List.mem_append_left _ hm)
      · exact hadded m (List.mem_append_right _ hm)

end Follows

theorem follows_replay (window : Int) {steps : List Step}
    (h : ∀ m ∈ appended steps, m.Prunable) :
    Follows window (appended steps) (replay window steps) := by
  have hempty : Follows window [] [] := ⟨rfl, rfl, fun m hm => absurd hm (by simp)⟩
  exact hempty.replay h

/-- **Compacting little by little.** Take any history of messages that came in and of runs at any
    usage of any limit, and let one more run follow that is active. What it leaves is what one
    pruning leaves of all the messages that ever came in, in their original form. -/
theorem replay_eq_compact (window : Int) (steps : List Step) (usage limit : Int) (ratio : Binary64)
    (hprunable : ∀ m ∈ appended steps, m.Prunable)
    (hratio : (Occupancy.mk usage limit window).ratio = .ok ratio)
    (hactive : Pipeline.standard.active (.float ratio) ≠ []) :
    ∃ once done, (Pass.pruner {}).compact (appended steps) window = .ok once ∧
      Pipeline.standard.run (replay window steps) ⟨usage, limit, window⟩ = .ok done ∧
      done.messages = once.messages ∧
      replay window (steps ++ [.run usage limit]) = once.messages := by
  have hfollows := follows_replay window hprunable
  have htext : ∀ m ∈ appended steps, m.TextResults := fun m hm => (hprunable m hm).textResults
  have hfits : FitsMemory (appended steps) :=
    fun m hm call hcall => (hprunable m hm call hcall).fits
  obtain ⟨once, honce⟩ := (Pass.pruner {}).compact_isOk window htext hfits
  obtain ⟨done, hdone, hmessages⟩ := Pipeline.run_standard hfollows.prunable hratio
  have hsame : done.messages = once.messages := by
    have hcompacted := ((Pass.compact_eq_ok_iff htext).1 honce).1
    rw [hmessages, if_neg hactive, hfollows.compacted_eq, hcompacted]
    rfl
  refine ⟨once, done, honce, hdone, hsame, ?_⟩
  simp only [replay, List.foldl_append, List.foldl_cons, List.foldl_nil]
  rw [← hsame]
  simp only [replay] at hdone
  simp only [Step.apply, hdone]

/-- A question and a tool call that brings back some number of characters. -/
def errand (size : Nat) (isError : Bool) : List Message :=
  [⟨.string "user", .string "q", []⟩,
    ⟨.string "assistant", .null, [⟨.string "a", .string "read", .object [],
      .string (String.ofList (List.replicate size 'x')), isError⟩]⟩]

theorem prunable_of_mem_errand {size : Nat} {isError : Bool} (h : size < 2 ^ 63) :
    ∀ m ∈ errand size isError, m.Prunable := by
  intro m hm call hcall
  simp only [errand, List.mem_cons, List.not_mem_nil, or_false] at hm
  rcases hm with rfl | rfl
  · exact absurd hcall (by simp)
  · have hname : "read".length ≤ 1400 := by decide +kernel
    have hsize : (String.ofList (List.replicate size 'x')).length < 2 ^ 63 := by
      rw [String.length_ofList, List.length_replicate]
      exact h
    rw [List.mem_singleton.1 hcall]
    exact ⟨rfl, hsize, hname⟩

/-- Two errands with long results, an active run after the first and an inactive one after the
    second, and a third errand. -/
def errands : List Step :=
  [.append (errand 1600 false), .run 1 2, .append (errand 1600 true), .run 0 2,
    .append (errand 1600 true)]

theorem replay_eq_compact_errands :
    (∀ m ∈ appended errands, m.Prunable) ∧
      (Occupancy.mk 1 2 1).ratio = .ok (.finite false 4503599627370496 (-53)) ∧
      Pipeline.standard.active (.float (.finite false 4503599627370496 (-53))) ≠ [] ∧
      ∃ once, (Pass.pruner {}).compact (appended errands) 1 = .ok once ∧
        replay 1 (errands ++ [.run 1 2]) = once.messages := by
  have hprunable : ∀ m ∈ appended errands, m.Prunable := by
    intro m hm
    obtain ⟨step, hstep, hm⟩ := List.mem_flatMap.1 hm
    simp only [errands, List.mem_cons, List.not_mem_nil, or_false] at hstep
    rcases hstep with rfl | rfl | rfl | rfl | rfl
    · exact prunable_of_mem_errand (by omega) m hm
    · exact absurd hm (by simp [Step.added])
    · exact prunable_of_mem_errand (by omega) m hm
    · exact absurd hm (by simp [Step.added])
    · exact prunable_of_mem_errand (by omega) m hm
  have hratio : (Occupancy.mk 1 2 1).ratio = .ok (.finite false 4503599627370496 (-53)) := by
    decide +kernel
  have hactive : Pipeline.standard.active (.float (.finite false 4503599627370496 (-53))) ≠ [] := by
    decide +kernel
  obtain ⟨once, done, honce, -, -, hreplay⟩ :=
    replay_eq_compact 1 errands 1 2 _ hprunable hratio hactive
  exact ⟨hprunable, hratio, hactive, once, honce, hreplay⟩

end History

end Parley
