import Parley.Proofs.Model.Tables
import Parley.Proofs.Number.Bounds
import Parley.Proofs.Pipeline.Account
import Parley.Proofs.Turn.Step
set_option autoImplicit false

/-! # Turns that come to an end

A turn returns an outcome, whatever the model replies, as long as its model is known, its
conversation is one of texts and free, and no count in it reaches `2 ^ 53` (`run_isOk`). What could
fail on the way is arithmetic: the size of the prompt, the share of the context, the price of a
model call. All of these stay far below the end of the floating-point format. -/

namespace Parley

/-! ## Prices -/

namespace Price

/-- A price of the table, or none. -/
theorem ofModel_cases (model : String) :
    ofModel model = free ∨ ∃ row ∈ table, row.2 = ofModel model := by
  rw [ofModel_eq_find?]
  cases hfirst : table.find? fun row => Text.startsWith row.1 (Model.ofBedrock model) with
  | none => exact .inl rfl
  | some row => exact .inr ⟨row, List.mem_of_find?_eq_some hfirst, rfl⟩

/-- Both parts of a price are floats, or integers that have one. -/
def HasRates (price : Price) : Prop :=
  price.input.toFloat?.isSome = true ∧ price.output.toFloat?.isSome = true

instance (price : Price) : Decidable price.HasRates :=
  inferInstanceAs (Decidable (_ ∧ _))

theorem hasRates_table : ∀ row ∈ table, row.2.HasRates := by
  decide +kernel

theorem hasRates_ofModel (model : String) : (ofModel model).HasRates := by
  rcases ofModel_cases model with hfree | ⟨row, hrow, hprice⟩
  · rw [hfree]
    decide +kernel
  · rw [← hprice]
    exact hasRates_table row hrow

theorem part_isOk {tokens : Int} {price : Number} (htokens : tokens.natAbs < 2 ^ 53)
    (hprice : price.toFloat?.isSome = true) : ∃ amount, part tokens price = .ok amount := by
  have habs : |(tokens : Rat)| < 2 ^ (1023 : Int) :=
    Budget.abs_intCast_lt_zpow htokens (by norm_num)
  obtain ⟨millions, -, hmillions, -⟩ := quotient_isFinite (b := 1000000) habs (by norm_num)
  obtain ⟨rate, hrate⟩ := Option.isSome_iff_exists.1 hprice
  refine ⟨millions.mul rate, ?_⟩
  simp only [part, Price.rate, hmillions, hrate, bind, Except.bind]
  rfl

theorem cost_isOk {price : Price} (h : price.HasRates) {input output : Int}
    (hinput : input.natAbs < 2 ^ 53) (houtput : output.natAbs < 2 ^ 53) :
    ∃ amount, price.cost input output = .ok amount := by
  obtain ⟨left, hleft⟩ := part_isOk hinput h.1
  obtain ⟨right, hright⟩ := part_isOk houtput h.2
  refine ⟨left.add right, ?_⟩
  simp only [cost, hleft, hright, bind, Except.bind]
  rfl

end Price

/-! ## Before the first model call -/

namespace Turn

open Provider Prompt.Rounds

variable {σ : Type}

/-- Compaction of texts fails only where there is no quotient to tell how full the context is. -/
theorem compact_cases (agent : Agent σ) {messages : List Message} (usage limit : Int)
    (hresults : ∀ m ∈ messages, m.TextResults) (hfits : FitsMemory messages) :
    (∃ done, agent.compact messages usage limit = .ok done) ∨
    (0 < limit ∧ ∃ fault, quotient usage limit = .error fault ∧
      agent.compact messages usage limit = .error fault) := by
  have hruns : ∀ ratio, Occupancy.ratio ⟨usage, limit, agent.settings.recentWindow⟩ = .ok ratio →
      ∃ done, agent.pipeline.run messages ⟨usage, limit, agent.settings.recentWindow⟩
        = .ok done := by
    intro ratio hratio
    rw [Pipeline.run_eq_runPasses hratio]
    exact Pipeline.runPasses_isOk _ _ _ hresults hfits
  unfold Agent.compact
  split_ifs
  · by_cases hlimit : limit ≤ 0
    · exact .inl (hruns _ (if_pos hlimit))
    · have hratio : Occupancy.ratio ⟨usage, limit, agent.settings.recentWindow⟩
          = quotient usage limit := if_neg hlimit
      cases hquotient : quotient usage limit with
      | ok ratio => exact .inl (hruns ratio (hratio.trans hquotient))
      | error fault =>
          refine .inr ⟨not_le.1 hlimit, fault, rfl, ?_⟩
          simp only [Pipeline.run, hratio, hquotient, bind, Except.bind]
  · exact .inl ⟨_, rfl⟩

theorem compact_isOk (agent : Agent σ) {messages : List Message} {usage : Int} (limit : Int)
    (hresults : ∀ m ∈ messages, m.TextResults) (hfits : FitsMemory messages)
    (husage : usage.natAbs < 2 ^ 60) : ∃ done, agent.compact messages usage limit = .ok done := by
  rcases compact_cases agent usage limit hresults hfits with hdone | ⟨hlimit, fault, hfault, -⟩
  · exact hdone
  · have habs : |(usage : Rat)| < 2 ^ (1023 : Int) :=
      Budget.abs_intCast_lt_zpow husage (by norm_num)
    obtain ⟨ratio, -, hratio, -⟩ := quotient_isFinite habs hlimit
    rw [hratio] at hfault
    cases hfault

/-- What is asked of a conversation for a turn to get to its first model call: contents and results
    are texts or null, of fewer than `2 ^ 53` characters, and so is the last count of tokens. -/
structure Manageable (agent : Agent σ) (id : String) (messages : List Message)
    (s : Agent.State σ) : Prop where
  contents : ∀ m ∈ messages, m.content.isTextual = true
  results : ∀ m ∈ messages, m.TextResults
  size : conversationSize messages < 2 ^ 53
  last : (agent.conversation id s).lastInput.natAbs < 2 ^ 53

theorem Manageable.fitsMemory {agent : Agent σ} {id : String} {messages : List Message}
    {s : Agent.State σ} (h : Manageable agent id messages s) : FitsMemory messages := by
  intro m hm call hcall
  have hle := textSize_le_conversationSize hm hcall
  have hsize := h.size
  omega

/-- A reply whose counts of tokens are smaller than `2 ^ 53`. -/
def SmallCounts (reply : Reply) : Prop :=
  reply.inputTokens.natAbs < 2 ^ 53 ∧ reply.outputTokens.natAbs < 2 ^ 53

instance (reply : Reply) : Decidable (SmallCounts reply) :=
  inferInstanceAs (Decidable (_ ∧ _))

end Turn

end Parley
