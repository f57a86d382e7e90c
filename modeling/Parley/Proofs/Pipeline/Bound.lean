import Parley.Proofs.Pipeline.Again
set_option autoImplicit false

/-! # How long pruned results are

A pruner passes over a result in three places: an error that ends in a marker stays as it is, and so
do errors and other results that would not become shorter. In the last two cases the result is no
longer than what would have taken its place. So an error that does not end in a marker is at most as
long as a cut error (`Pruner.length_error_le`), and every other result is within the threshold or at
most as long as its placeholder (`Pruner.length_plain_le`). An error that does end in a marker has no
bound at all. -/

namespace Parley

namespace Pruner

/-! ## Markers and beginnings -/

/-- A text that ends in a complete marker, with at least one decimal digit of any script for a
    length. -/
def Marked (text : String) : Prop :=
  ∃ before digits, digits ≠ [] ∧ (∀ c ∈ digits, Text.isDecimalDigit c = true) ∧
    text.toList = before ++ "\n\n[Error output truncated: ".toList ++ digits
      ++ " chars total]".toList

theorem endsInMarker_iff_marked {text : String} : endsInMarker text = true ↔ Marked text :=
  endsInMarker_iff

/-- A marked text ends in a bracket. -/
theorem getLast?_of_marked {text : String} (h : Marked text) : text.toList.getLast? = some ']' := by
  obtain ⟨before, digits, -, -, htext⟩ := h
  rw [htext, List.getLast?_append]
  rfl

/-- The length of a marker is that of its wording and the number. -/
theorem length_marker (n : Nat) : (marker n).length = 40 + digitCount n := by
  have hstart : markerStart.toList.length = 27 := rfl
  have hend : markerEnd.toList.length = 13 := rfl
  rw [← String.length_toList, toList_marker, List.length_append, List.length_append, hstart, hend,
    digitCount]
  omega

theorem leading_eq {keep : Int} (h : 0 ≤ keep) (text : String) :
    leading keep text = String.ofList (text.toList.take keep.toNat) := by
  unfold leading
  rw [if_neg (by omega)]

theorem length_leading_le {keep : Int} (h : 0 ≤ keep) (text : String) :
    (leading keep text).length ≤ keep.toNat := by
  rw [leading_eq h, String.length_ofList, List.length_take]
  exact Nat.min_le_left _ _

/-! ## One result -/

/-- What stands in the place of a text after a pruner has seen it. -/
def textAfter (p : Pruner) (call : ToolCall) (text : String) : String :=
  ((Strategy.prune p).newText? call).getD text

section

variable {p : Pruner} {call : ToolCall} {old : String}

theorem rewriteCall_eq (h : call.result = .string old) :
    (Strategy.prune p).rewriteCall call
      = { call with result := .string (p.textAfter call old) } := by
  unfold Strategy.rewriteCall textAfter
  cases (Strategy.prune p).newText? call with
  | none =>
      show call = { call with result := .string old }
      rw [← h]
  | some new => rfl

/-- A result that is no error to be cut gives way to its placeholder, if it has more characters than
    the threshold and that makes it shorter. -/
theorem textAfter_plain (h : call.result = .string old)
    (hplain : ¬ (call.isError = true ∧ p.errorKeepChars < old.length)) :
    p.textAfter call old
      = if p.truncateThreshold < old.length then
          (ifShorter old.length (placeholder old.length call.name.display)).getD old
        else old := by
  simp only [textAfter, Strategy.newText?, Strategy.replacement?, replacement?, h, reduceCtorEq,
    if_false, Json.size?, Json.text?, Bool.and_eq_true, decide_eq_true_eq, if_neg hplain]
  split_ifs <;> rfl

/-- A text is not replaced by a longer one, and where it stays it is no longer than its
    replacement. -/
theorem length_ifShorter_getD_le (replacement : String) :
    ((ifShorter old.length replacement).getD old).length ≤ replacement.length := by
  unfold ifShorter
  split_ifs with hshorter
  · exact Nat.le_refl _
  · exact Nat.le_of_not_lt hshorter

/-- A result that is no error to be cut is within the threshold or at most as long as its
    placeholder. -/
theorem length_plain_le (h : call.result = .string old)
    (hplain : ¬ (call.isError = true ∧ p.errorKeepChars < old.length)) :
    ((p.textAfter call old).length : Int) ≤ p.truncateThreshold ∨
      (p.textAfter call old).length ≤ (placeholder old.length call.name.display).length := by
  rw [textAfter_plain h hplain]
  split_ifs with hlong
  · exact Or.inr (length_ifShorter_getD_le _)
  · exact Or.inl (not_lt.1 hlong)

section

variable (h : call.result = .string old) (herror : call.isError = true)
  (hkeep : p.errorKeepChars ≤ p.truncateThreshold)

include h herror hkeep

/-- An error of more than the characters to keep is cut, unless it cannot be. Every other error is
    within the threshold too. -/
theorem textAfter_error :
    p.textAfter call old
      = if p.errorKeepChars < old.length then (p.cutError old).getD old else old := by
  by_cases hlong : p.errorKeepChars < old.length
  · simp only [textAfter, Strategy.newText?, Strategy.replacement?, replacement?, h, reduceCtorEq,
      if_false, Json.size?, Json.text?, herror, Bool.true_and, decide_eq_true_eq, if_pos hlong]
  · rw [textAfter_plain h fun hcut => hlong hcut.2, if_neg (by omega), if_neg hlong]

theorem textAfter_of_marked (hmarked : Marked old) : p.textAfter call old = old := by
  rw [textAfter_error h herror hkeep, cutError, if_pos (endsInMarker_iff_marked.2 hmarked)]
  exact ite_self old

/-- An error that does not end in a marker is at most as long as a cut error. -/
theorem length_error_le (hnonneg : 0 ≤ p.errorKeepChars) (hunmarked : ¬ Marked old) :
    (p.textAfter call old).length ≤ p.errorKeepChars.toNat + (marker old.length).length := by
  rw [textAfter_error h herror hkeep, cutError, if_neg (mt endsInMarker_iff_marked.1 hunmarked)]
  split_ifs with hlong
  · calc ((ifShorter old.length (leading p.errorKeepChars old ++ marker old.length)).getD old).length
        ≤ (leading p.errorKeepChars old ++ marker old.length).length :=
          length_ifShorter_getD_le _
      _ = (leading p.errorKeepChars old).length + (marker old.length).length :=
          String.length_append _ _
      _ ≤ p.errorKeepChars.toNat + (marker old.length).length :=
          Nat.add_le_add_right (length_leading_le hnonneg old) _
  · omega

/-- An error that is changed keeps its beginning and gets a marker that states its length. -/
theorem textAfter_cut (hchanged : p.textAfter call old ≠ old) :
    p.errorKeepChars < old.length ∧
      p.textAfter call old = leading p.errorKeepChars old ++ marker old.length := by
  rw [textAfter_error h herror hkeep] at hchanged ⊢
  split_ifs at hchanged ⊢ with hlong
  · refine ⟨hlong, ?_⟩
    cases hcut : p.cutError old with
    | none => exact absurd (by rw [hcut]; rfl) hchanged
    | some new =>
        unfold cutError at hcut
        split_ifs at hcut
        exact (ifShorter_eq_some hcut).1
  · exact absurd rfl hchanged

end

end

end Pruner

/-! ## The standard pruner -/

theorem Pruner.digitCount_le_of_fits {n : Nat} (h : n < 2 ^ 63) : digitCount n ≤ 19 :=
  (Nat.length_toDigits_le_iff (by decide) (by decide)).2 (by omega)

/-- What the standard pruner may make of a tool call before the window: a shrunk one. An error that
    ends in a marker stays as it is, whatever its length. Every other result has at most 1500
    characters afterwards, and at most 559 if it is an error. An error that is changed keeps its
    first 500 characters and gets a marker that states the length it had. -/
structure ToolCall.Bounded (before after : ToolCall) : Prop where
  shrunk : before.Shrunk after
  marked : ∀ old, before.result = .string old → before.isError = true → Pruner.Marked old →
    after = before
  bounded : ∀ old, before.result = .string old →
    ¬ (before.isError = true ∧ Pruner.Marked old) →
      ∃ new, after.result = .string new ∧ new.length ≤ 1500 ∧
        (before.isError = true → new.length ≤ 559)
  cut : ∀ old, before.result = .string old → before.isError = true → after ≠ before →
    500 < old.length ∧
      after.result = .string (String.ofList (old.toList.take 500) ++ Pruner.marker old.length)

namespace standardPruning

variable {call : ToolCall}

theorem length_textAfter_le {old : String} (h : call.Prunable) (hold : call.result = .string old)
    (hunmarked : ¬ (call.isError = true ∧ Pruner.Marked old)) :
    (Pruner.textAfter {} call old).length ≤ 1500 ∧
      (call.isError = true → (Pruner.textAfter {} call old).length ≤ 559) := by
  have hfits : old.length < 2 ^ 63 := by
    have hsize := h.fits
    rwa [hold] at hsize
  by_cases herror : call.isError = true
  · have hcut := Pruner.length_error_le (p := {}) hold herror (by decide) (by decide)
      fun hmarked => hunmarked ⟨herror, hmarked⟩
    have hdigits := Pruner.digitCount_le_of_fits hfits
    rw [Pruner.length_marker] at hcut
    have hshort : (Pruner.textAfter {} call old).length ≤ 559 :=
      hcut.trans (show 500 + (40 + Pruner.digitCount old.length) ≤ 559 by omega)
    exact ⟨hshort.trans (by decide), fun _ => hshort⟩
  · refine ⟨?_, fun hcontra => absurd hcontra herror⟩
    rcases Pruner.length_plain_le (p := {}) hold fun hcut => herror hcut.1 with hshort | hplaceholder
    · exact Int.ofNat_le.1 hshort
    · exact hplaceholder.trans (Pruner.length_placeholder_le hfits h.name)

theorem bounded_rewriteCall (h : call.Prunable) :
    call.Bounded (standardPruning.rewriteCall call) := by
  have hself : ∀ old, call.result = .string old → Pruner.textAfter {} call old = old →
      standardPruning.rewriteCall call = call := by
    intro old hold hsame
    rw [standardPruning, Pruner.rewriteCall_eq hold, hsame, ← hold]
  constructor
  · exact standardPruning.shrunk_rewriteCall h.textual
  · intro old hold herror hmarked
    exact hself old hold (Pruner.textAfter_of_marked hold herror (by decide) hmarked)
  · intro old hold hunmarked
    refine ⟨Pruner.textAfter {} call old, ?_, length_textAfter_le h hold hunmarked⟩
    rw [standardPruning, Pruner.rewriteCall_eq hold]
  · intro old hold herror hchanged
    obtain ⟨hlong, hcut⟩ := Pruner.textAfter_cut hold herror (by decide)
      fun hsame => hchanged (hself old hold hsame)
    refine ⟨Int.ofNat_lt.1 hlong, ?_⟩
    rw [standardPruning, Pruner.rewriteCall_eq hold, hcut, Pruner.leading_eq (by decide)]
    rfl

end standardPruning

namespace Pass

/-- **How long pruned results are.** On results that fit in a memory and names of at most 1400
    characters the standard pruner comes to an end. The window of what it leaves starts where it did,
    and each tool call of an assistant's message before the window is bounded: 1500 characters for a
    result, 559 for an error, and no bound for an error that ended in a marker when it came in. -/
theorem compact_bounded (messages : List Message) (window : Int)
    (hprunable : ∀ m ∈ messages, m.Prunable) :
    ∃ done, (pruner {}).compact messages window = .ok done ∧
      done.messages.length = messages.length ∧
      Window.start done.messages window = Window.start messages window ∧
      ∀ i m, i < Window.start messages window → messages[i]? = some m → m.isAssistant = true →
        ∃ m', done.messages[i]? = some m' ∧ m'.isAssistant = true ∧
          List.Forall₂ ToolCall.Bounded m.toolCalls m'.toolCalls := by
  have htext : ∀ m ∈ messages, m.TextResults := fun m hm => (hprunable m hm).textResults
  have hfits : FitsMemory messages := fun m hm call hcall => (hprunable m hm call hcall).fits
  obtain ⟨done, hdone⟩ := (pruner {}).compact_isOk window htext hfits
  have hframe := compact_frame htext hdone
  have hmessages := ((compact_eq_ok_iff htext).1 hdone).1
  refine ⟨done, hdone, hframe.shrunk.length_eq.symm, hframe.start_eq, ?_⟩
  intro i m hi hm hassistant
  have hrewrite : standardPruning.rewrite m
      = { m with toolCalls := m.toolCalls.map standardPruning.rewriteCall } := if_pos hassistant
  refine ⟨standardPruning.rewrite m, ?_, ?_, ?_⟩
  · rw [hmessages, Strategy.getElem?_compacted, if_pos hi, hm]
    rfl
  · rw [hrewrite]
    exact hassistant
  · rw [hrewrite, List.forall₂_map_right_iff, List.forall₂_same]
    intro call hcall
    exact standardPruning.bounded_rewriteCall (hprunable m (List.mem_of_getElem? hm) call hcall)

/-- A long error that ends in a marker, although nothing has cut it. -/
def forgedCall : ToolCall :=
  { errandCall 0 true with
    result := .string (String.ofList (List.replicate 700 'x') ++ Pruner.marker 9) }

/-- A long result, a long error and a forged one before the window, and a short result in it. -/
def forging : List Message :=
  History.errand 1600 false ++ History.errand 1600 true
    ++ [⟨.string "user", .string "q", []⟩, ⟨.string "assistant", .null, [forgedCall]⟩]
    ++ History.errand 5 false

/-- The long error is cut, and the forged one keeps its 741 characters. -/
theorem compact_bounded_forging :
    (∀ m ∈ forging, m.Prunable) ∧
      ∃ done, (pruner {}).compact forging 1 = .ok done ∧
        (∃ call new, callAt done.messages 3 0 = some call ∧ call.result = .string new ∧
          new.length ≤ 559) ∧
        callAt done.messages 5 0 = some forgedCall ∧ forgedCall.result.textSize = 741 := by
  have hsize : (String.ofList (List.replicate 700 'x') ++ Pruner.marker 9).length = 741 := by
    rw [String.length_append, length_errandCall]
    decide +kernel
  have hforged : forgedCall.Prunable :=
    ⟨rfl, by rw [forgedCall, Json.textSize, hsize]; decide, by decide +kernel⟩
  have hprunable : ∀ m ∈ forging, m.Prunable := by
    intro m hm
    simp only [forging, List.mem_append, List.mem_cons, List.not_mem_nil, or_false] at hm
    rcases hm with ((hm | hm) | rfl | rfl) | hm
    · exact History.prunable_of_mem_errand (by omega) m hm
    · exact History.prunable_of_mem_errand (by omega) m hm
    · exact fun call hcall => absurd hcall (by simp)
    · exact fun call hcall => List.mem_singleton.1 hcall ▸ hforged
    · exact History.prunable_of_mem_errand (by omega) m hm
  have hstart : Window.start forging 1 = 6 := by decide +kernel
  obtain ⟨done, hdone, -, -, hbounded⟩ := compact_bounded forging 1 hprunable
  rw [hstart] at hbounded
  refine ⟨hprunable, done, hdone, ?_, ?_, hsize⟩
  · obtain ⟨m, hm, -, hcalls⟩ := hbounded 3 _ (by decide) rfl rfl
    obtain ⟨call, hcall, hcut⟩ := Pointwise.exists_getElem? hcalls (i := 0) rfl
    have hunmarked : ¬ Pruner.Marked (String.ofList (List.replicate 1600 'x')) := by
      intro hmarked
      have hlast := Pruner.getLast?_of_marked hmarked
      rw [String.toList_ofList, List.getLast?_replicate] at hlast
      exact absurd hlast (by decide)
    obtain ⟨new, hnew, -, hshort⟩ := hcut.bounded _ rfl fun hmarked => hunmarked hmarked.2
    exact ⟨call, new, by rw [callAt, hm]; exact hcall, hnew, hshort rfl⟩
  · obtain ⟨m, hm, -, hcalls⟩ := hbounded 5 _ (by decide) rfl rfl
    obtain ⟨call, hcall, hkept⟩ := Pointwise.exists_getElem? hcalls (i := 0) rfl
    have hmarked : Pruner.Marked (String.ofList (List.replicate 700 'x') ++ Pruner.marker 9) :=
      Pruner.endsInMarker_iff_marked.1 (Pruner.endsInMarker_append_marker _ 9)
    rw [← hkept.marked _ rfl rfl hmarked, callAt, hm]
    exact hcall

end Pass

end Parley
