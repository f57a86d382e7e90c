import Parley.Proofs.Prompt.Trimming
set_option autoImplicit false

/-! # The results of a prompt as one list

Trimming counts the results of a prompt from its end, across its messages. Laid out in one list
(`results`), they are trimmed by their place alone: what is left of a result is decided by the
number of results behind it in the list (`results_trimmedPrompt`). So all but the newest `keep`
results are short after a trimming, and the newest are as they were (`resultText?_shown`). -/

namespace Parley.Prompt.Rounds

/-- The results of a prompt, in the order of its messages and of the blocks in each. -/
def results (prompt : List Json) : List Json :=
  (prompt.flatMap blocksIn).filter isResult

/-- Results after trimming, with `later` results after them. -/
def shownAll (keep later : Nat) : List Json → List Json
  | [] => []
  | block :: rest => shown keep (later + rest.length) block :: shownAll keep later rest

theorem results_cons (message : Json) (rest : List Json) :
    results (message :: rest) = (blocksIn message).filter isResult ++ results rest := by
  rw [results, List.flatMap_cons, List.filter_append, results]

theorem length_filter_isResult (blocks : List Json) :
    (blocks.filter isResult).length = resultCount blocks :=
  List.countP_eq_length_filter.symm

theorem length_results (prompt : List Json) : (results prompt).length = promptResults prompt := by
  induction prompt with
  | nil => rfl
  | cons message rest ih =>
      rw [results_cons, List.length_append, length_filter_isResult, ih, promptResults_cons]

@[simp] theorem length_shownAll (keep later : Nat) (blocks : List Json) :
    (shownAll keep later blocks).length = blocks.length := by
  induction blocks with
  | nil => rfl
  | cons block rest ih => rw [shownAll, List.length_cons, List.length_cons, ih]

theorem shownAll_append (keep later : Nat) (blocks added : List Json) :
    shownAll keep later (blocks ++ added)
      = shownAll keep (later + added.length) blocks ++ shownAll keep later added := by
  induction blocks with
  | nil => rfl
  | cons block rest ih =>
      rw [List.cons_append, shownAll, shownAll, ih, List.length_append, List.cons_append]
      congr 2
      omega

/-- What is left at a place is decided by the number of results behind it. -/
theorem getElem?_shownAll (keep later : Nat) (blocks : List Json) (p : Nat) :
    (shownAll keep later blocks)[p]?
      = blocks[p]?.map (shown keep (later + (blocks.length - (p + 1)))) := by
  induction blocks generalizing p with
  | nil => rfl
  | cons block rest ih =>
      cases p with
      | zero => rfl
      | succ p =>
          rw [shownAll, List.getElem?_cons_succ, List.getElem?_cons_succ, ih, List.length_cons,
            Nat.add_sub_add_right]

theorem filter_trimmedBlocks (keep later : Nat) (blocks : List Json) :
    (trimmedBlocks keep later blocks).filter isResult
      = shownAll keep later (blocks.filter isResult) := by
  induction blocks with
  | nil => rfl
  | cons block rest ih =>
      rw [trimmedBlocks, List.filter_cons, List.filter_cons, isResult_shown, ih]
      by_cases hresult : isResult block = true
      · rw [if_pos hresult, if_pos hresult, shownAll, length_filter_isResult]
      · rw [if_neg hresult, if_neg hresult]

/-- Trimming a prompt trims the list of its results. -/
theorem results_trimmedPrompt (keep later : Nat) (prompt : List Json) :
    results (trimmedPrompt keep later prompt) = shownAll keep later (results prompt) := by
  induction prompt with
  | nil => rfl
  | cons message rest ih =>
      rw [trimmedPrompt, results_cons, results_cons, blocksIn_trimmedMessage, filter_trimmedBlocks,
        ih, shownAll_append, length_results]

/-- A result whose text is short, or gives way to a placeholder, is short. -/
theorem resultText?_shown {keep after : Nat} {block : Json} {text : String}
    (htext : resultText? block = some text) (hkeep : keep ≤ after) :
    resultText? (shown keep after block)
      = some (if keptLength < text.length then placeholder text.length else text) := by
  by_cases hlong : keptLength < text.length
  · have hgives : longText? keep after block = some text :=
      longText?_eq_some_iff.2 ⟨hkeep, htext, hlong⟩
    rw [if_pos hlong, shown, hgives]
    exact resultText?_withText (isResult_of_resultText? htext) _
  · have hkept : longText? keep after block = none := by
      refine Option.eq_none_iff_forall_ne_some.2 fun other hgives => hlong ?_
      obtain ⟨-, hother, hlength⟩ := longText?_eq_some_iff.1 hgives
      rw [htext, Option.some.injEq] at hother
      exact hother ▸ hlength
    rw [if_neg hlong, shown, hkept]
    exact htext

/-- A result with fewer than `keep` results behind it stays. -/
theorem shown_of_lt {keep after : Nat} (h : after < keep) (block : Json) :
    shown keep after block = block := by
  have hkept : longText? keep after block = none := by
    rw [longText?, if_neg (by omega)]
  rw [shown, hkept]

/-- Texts of results are below a limit if those in the list of results are. -/
theorem resultsBelow_of_results {limit : Nat} {prompt : List Json}
    (h : ∀ block ∈ results prompt, Below limit block) : ResultsBelow limit prompt := by
  intro message hmessage block hblock text htext
  refine h block ?_ text htext
  exact List.mem_filter.2 ⟨List.mem_flatMap.2 ⟨message, hmessage, hblock⟩,
    isResult_of_resultText? htext⟩

end Parley.Prompt.Rounds
