import Parley.Proofs.Pipeline.Account
set_option autoImplicit false

/-! # Savings and the size of the prompt

A report rounds up once for every entry, and an estimate of the prompt rounds up once for the whole
conversation. A quarter that is rounded up gains at most three quarters of a token
(`Budget.quarter_bounds`). The characters that the entries lost are those that the conversation lost,
so what a report says was saved is never less than what the estimate goes down by, and exceeds it by
no more than three quarters for each entry and one more for the estimate
(`Account.tokensSaved_bounds`). -/

namespace Parley

/-! ## Rounding up -/

namespace Budget

/-- Four times a quarter that was rounded up exceeds the number by at most three. -/
theorem quarter_bounds (n : Int) :
    n ≤ 4 * ⌈(n : Rat) / 4⌉ ∧ 4 * ⌈(n : Rat) / 4⌉ ≤ n + 3 := by
  have hlow : (n : Rat) / 4 ≤ ⌈(n : Rat) / 4⌉ := Int.le_ceil _
  have hhigh : (⌈(n : Rat) / 4⌉ : Rat) < (n : Rat) / 4 + 1 := Int.ceil_lt_add_one _
  have hlow' : (n : Rat) ≤ ((4 * ⌈(n : Rat) / 4⌉ : Int) : Rat) := by
    push_cast
    linarith
  have hhigh' : ((4 * ⌈(n : Rat) / 4⌉ : Int) : Rat) < ((n + 4 : Int) : Rat) := by
    push_cast
    linarith
  have hle : n ≤ 4 * ⌈(n : Rat) / 4⌉ := Int.cast_le.1 hlow'
  have hlt : 4 * ⌈(n : Rat) / 4⌉ < n + 4 := Int.cast_lt.1 hhigh'
  exact ⟨hle, by omega⟩

end Budget

/-- Rounding up entry by entry gains at most three quarters of a token for each. -/
theorem Entry.quarters_bounds (entries : List Entry) :
    (entries.map Entry.shrinkage).sum
        ≤ 4 * (entries.map fun e => ⌈(e.shrinkage : Rat) / 4⌉).sum ∧
      4 * (entries.map fun e => ⌈(e.shrinkage : Rat) / 4⌉).sum
        ≤ (entries.map Entry.shrinkage).sum + 3 * entries.length := by
  induction entries with
  | nil => simp
  | cons e rest ih =>
      have hown := Budget.quarter_bounds e.shrinkage
      simp only [List.map_cons, List.sum_cons, List.length_cons]
      push_cast
      omega

/-! ## One report -/

/-- A report that accounts for the difference between two conversations says that at least as much
    was saved as their estimates differ by, and at most three quarters of a token more for each
    entry and for the estimate. -/
theorem Account.tokensSaved_bounds {before after : List Message} {r : Report}
    (h : Account before r after) :
    ⌈((conversationSize before : Int) : Rat) / 4⌉ - ⌈((conversationSize after : Int) : Rat) / 4⌉
        ≤ r.tokensSaved ∧
      r.tokensSaved
        ≤ ⌈((conversationSize before : Int) : Rat) / 4⌉
          - ⌈((conversationSize after : Int) : Rat) / 4⌉ + 3 * ((r.entries.length : Int) + 1) / 4 := by
  have hbefore := Budget.quarter_bounds (conversationSize before)
  have hafter := Budget.quarter_bounds (conversationSize after)
  have hentries := Entry.quarters_bounds r.entries
  rw [h.characters, ← h.tokens] at hentries
  omega

/-! ## A run of a pipeline -/

theorem fitsMemory_of_conversationSize {messages : List Message}
    (h : conversationSize messages < 2 ^ 63) : FitsMemory messages :=
  fun _ hm _ hcall => (textSize_le_conversationSize hm hcall).trans_lt h

namespace Pipeline

/-- A run over texts comes to an end exactly if there is a ratio. -/
theorem run_isOk_iff (pipeline : Pipeline) {messages : List Message} (o : Occupancy)
    (htext : ∀ m ∈ messages, m.TextResults) (hfits : FitsMemory messages) :
    (∃ done, pipeline.run messages o = .ok done) ↔ ∃ ratio, o.ratio = .ok ratio := by
  constructor
  · rintro ⟨done, hdone⟩
    cases hratio : o.ratio with
    | ok ratio => exact ⟨ratio, rfl⟩
    | error fault => simp [run, hratio, bind, Except.bind] at hdone
  · rintro ⟨ratio, hratio⟩
    rw [run_eq_runPasses hratio]
    exact runPasses_isOk _ _ _ htext hfits

/-- **Savings bracket what the estimate goes down by.** On texts of fewer than `2 ^ 53` characters in
    all a pipeline comes to an end exactly if there is a ratio. The tokens that its report says were
    saved are then at least what the estimated size of the prompt goes down by, whatever the last
    input was, and they exceed it by at most three quarters of a token for each entry and for the
    estimate. -/
theorem run_brackets (pipeline : Pipeline) (messages : List Message) (o : Occupancy)
    (lastInput : Int) (total : Nat) (hcontent : ∀ m ∈ messages, m.content.isTextual = true)
    (htext : ∀ m ∈ messages, m.TextResults)
    (htotal : Budget.messageChars messages = .ok total) (hsmall : total < 2 ^ 53) :
    ((∃ done, pipeline.run messages o = .ok done) ↔ ∃ ratio, o.ratio = .ok ratio) ∧
    ∃ before, Budget.promptTokens messages lastInput = .ok before ∧
      ∀ done, pipeline.run messages o = .ok done →
        ∃ after, Budget.promptTokens done.messages lastInput = .ok after ∧
          before - after ≤ done.report.tokensSaved ∧
          done.report.tokensSaved
            ≤ before - after + 3 * ((done.report.entries.length : Int) + 1) / 4 := by
  have hsize : conversationSize messages = total := by
    rw [Budget.messageChars_eq hcontent htext, Except.ok.injEq] at htotal
    exact htotal
  rw [← hsize] at hsmall
  have hfits : FitsMemory messages :=
    fitsMemory_of_conversationSize (hsmall.trans (by decide))
  have hruns := pipeline.run_isOk_iff o htext hfits
  refine ⟨hruns, _, Budget.promptTokens_eq hcontent htext hsmall lastInput, ?_⟩
  intro done hdone
  obtain ⟨ratio, hratio⟩ := hruns.1 ⟨done, hdone⟩
  rw [run_eq_runPasses hratio] at hdone
  obtain ⟨r, hreport, haccount, -⟩ := runPasses_account htext hsmall hdone
  rw [Report.empty_merge] at hreport
  have hframe := runPasses_frame htext hdone
  have hsmaller := conversationSize_le_of_shrunk hframe.shrunk
  refine ⟨_, Budget.promptTokens_eq (hframe.textContents hcontent) (hframe.textResults htext)
    (hsmaller.trans_lt hsmall) lastInput, ?_⟩
  have hbounds := haccount.tokensSaved_bounds
  rw [hreport]
  omega

/-- Two passes with two entries each save 34 tokens where the estimate goes down by 32. -/
theorem run_brackets_exchange :
    (Occupancy.mk 1 2 1).ratio = .ok (.finite false 4503599627370496 (-53)) ∧
      Budget.messageChars exchange = .ok 142 ∧
      ∃ done before after, twoPasses.run exchange ⟨1, 2, 1⟩ = .ok done ∧
        Budget.promptTokens exchange 100 = .ok before ∧
        Budget.promptTokens done.messages 100 = .ok after ∧ before - after = 32 ∧
        done.report.tokensSaved = 34 ∧ done.report.entries.length = 4 ∧
        before - after ≤ done.report.tokensSaved ∧
        done.report.tokensSaved ≤ before - after + 3 := by
  have hratio : (Occupancy.mk 1 2 1).ratio = .ok (.finite false 4503599627370496 (-53)) := by
    decide +kernel
  have htotal : Budget.messageChars exchange = .ok 142 := by decide +kernel
  have hbefore : Budget.promptTokens exchange 100 = .ok 136 := by decide +kernel
  have hrun : (twoPasses.run exchange ⟨1, 2, 1⟩).map
      (fun done => (done.report.tokensSaved, done.report.entries.length,
        Budget.promptTokens done.messages 100)) = .ok (34, 4, .ok 104) := by
    decide +kernel
  obtain ⟨hruns, before, hestimate, hbracket⟩ :=
    run_brackets twoPasses exchange ⟨1, 2, 1⟩ 100 142 (by decide +kernel) (by decide +kernel)
      htotal (by decide)
  obtain ⟨done, hdone⟩ := hruns.2 ⟨_, hratio⟩
  obtain ⟨after, hafter, hlow, hhigh⟩ := hbracket done hdone
  rw [hdone] at hrun
  simp only [Except.map, Except.ok.injEq, Prod.mk.injEq, hafter] at hrun
  obtain ⟨hsaved, hcount, hleft⟩ := hrun
  rw [hbefore, Except.ok.injEq] at hestimate
  rw [hcount] at hhigh
  exact ⟨hratio, htotal, done, before, after, hdone, hestimate ▸ hbefore, hafter, by omega, hsaved,
    hcount, hlow, hhigh⟩

end Pipeline

end Parley
