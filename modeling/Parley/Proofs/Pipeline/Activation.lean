import Parley.Proofs.Number.Monotone
import Parley.Proofs.Pipeline.History
set_option autoImplicit false

/-! # When the standard pipeline starts

The one pass of the standard pipeline starts at half of the limit. A half is a float, so a share of a
half or more is not rounded below it. The greatest float below a half is `2 ^ 53 - 1` steps of
`2 ^ (-54)`, and with a limit of at most `2 ^ 53` no share that is less than a half lies above that
float (`share_le_belowHalf`), so none is rounded up to a half. With a greater limit there are shares
in between, and these start the pass early. -/

namespace Parley

open Number Binary64

/-! ## A half and the float below it -/

/-- The threshold of the standard pass. -/
def Pass.half : Binary64 := .finite false 4503599627370496 (-53)

/-- The greatest float below a half. -/
def belowHalf : Rat := ((2 ^ 53 - 1 : Nat) : Rat) * 2 ^ (-54 : Int)

theorem belowHalf_eq : belowHalf = 1 / 2 - 1 / 2 ^ 54 := by
  unfold belowHalf
  norm_num

theorem toRat?_half : Pass.half.toRat? = some (1 / 2) := by
  decide +kernel

theorem nearest_half : nearest (1 / 2) = 1 / 2 := by
  have hself := @onGrid_eq_self 1 (-1) (by omega) (by omega)
  have hvalue : ((1 : Nat) : Rat) * 2 ^ (-1 : Int) = 1 / 2 := by norm_num
  rw [hvalue] at hself
  rw [nearest_of_nonneg (by norm_num), hself]

theorem nearest_belowHalf : nearest belowHalf = belowHalf := by
  have hnonneg : 0 ≤ belowHalf := by
    rw [belowHalf_eq]
    norm_num
  rw [nearest_of_nonneg hnonneg]
  exact onGrid_eq_self (by omega) (by omega)

/-- What is at least a half is rounded to at least a half. -/
theorem half_le_nearest {q : Rat} (h : 1 / 2 ≤ q) : 1 / 2 ≤ nearest q := by
  have hle := nearest_le_nearest h
  rwa [nearest_half] at hle

/-- What does not exceed the greatest float below a half is rounded to less than a half. -/
theorem nearest_lt_half {q : Rat} (h : q ≤ belowHalf) : nearest q < 1 / 2 := by
  have hle := nearest_le_nearest h
  rw [nearest_belowHalf, belowHalf_eq] at hle
  have hstep : (0 : Rat) < 1 / 2 ^ 54 := by norm_num
  linarith

/-! ## Shares of a limit -/

namespace Occupancy

variable {usage limit : Int} (window : Int)

theorem share_of_pos (h : 0 < limit) :
    (Occupancy.mk usage limit window).share = (usage : Rat) / limit :=
  if_neg (not_le.2 h)

theorem half_le_share_iff (h : 0 < limit) :
    1 / 2 ≤ (Occupancy.mk usage limit window).share ↔ limit ≤ 2 * usage := by
  have hpos : (0 : Rat) < limit := by exact_mod_cast h
  rw [share_of_pos window h, div_le_div_iff₀ (by norm_num) hpos, one_mul, mul_comm (usage : Rat)]
  exact_mod_cast Iff.rfl

/-- A share of a limit up to `2 ^ 53` leaves out what lies between the float below a half and a
    half. -/
theorem share_le_belowHalf (h : 0 < limit) (hlimit : limit ≤ 2 ^ 53) (hless : 2 * usage < limit) :
    (Occupancy.mk usage limit window).share ≤ belowHalf := by
  have hpos : (0 : Rat) < limit := by exact_mod_cast h
  have hstep : (2 * usage + 1 : Rat) ≤ limit := by exact_mod_cast hless
  have hlarge : (limit : Rat) ≤ 2 ^ 53 := by exact_mod_cast hlimit
  rw [share_of_pos window h, div_le_iff₀ hpos, belowHalf_eq]
  -- one token less than a half of the limit is at least one step of the grid less
  have hgap : (limit : Rat) * (1 / 2 ^ 54) ≤ 1 / 2 := by
    calc (limit : Rat) * (1 / 2 ^ 54)
        ≤ 2 ^ 53 * (1 / 2 ^ 54) := by gcongr
      _ = 1 / 2 := by norm_num
  linarith

/-- There is a ratio wherever the usage is not close to the end of the format. -/
theorem ratio_isOk (limit : Int) (h : usage.natAbs < 2 ^ 1023) :
    ∃ x, (Occupancy.mk usage limit window).ratio = .ok x := by
  unfold ratio
  split_ifs with hnone
  · exact ⟨_, rfl⟩
  · have habs : |(usage : Rat)| < 2 ^ (1023 : Int) :=
      Budget.abs_intCast_lt_zpow h (by norm_num)
    obtain ⟨x, -, hx, -⟩ := quotient_isFinite habs (not_le.1 hnone)
    exact ⟨x, hx⟩

end Occupancy

/-! ## The standard pipeline -/

/-- A long result that is no error gives way to its placeholder. -/
theorem standardPruning.newText?_of_long {call : ToolCall} (h : call.Prunable) {old : String}
    (hold : call.result = .string old) (herror : call.isError = false) (hlong : 1500 < old.length) :
    standardPruning.newText? call = some (Pruner.placeholder old.length call.name.display) := by
  have hfits : old.length < 2 ^ 63 := by
    have hsize := h.fits
    rwa [hold] at hsize
  have hshort : (Pruner.placeholder old.length call.name.display).length < old.length :=
    (Pruner.length_placeholder_le hfits h.name).trans_lt hlong
  have hthreshold : (1500 : Int) < old.length := by omega
  simp only [Strategy.newText?, standardPruning, Strategy.replacement?, Pruner.replacement?, hold,
    reduceCtorEq, if_false, Json.size?, herror, Bool.false_and, Bool.false_eq_true, if_pos hthreshold,
    Pruner.ifShorter, if_pos hshort]

namespace Pipeline

theorem active_standard {o : Occupancy} {x : Binary64} (h : o.ratio = .ok x) :
    standard.active (.float x) = if 1 / 2 ≤ nearest o.share then [Pass.pruner {}] else [] := by
  have hle : (Pass.pruner {}).threshold.le (.float x) = true ↔ 1 / 2 ≤ nearest o.share :=
    float_le_float_iff toRat?_half (Occupancy.toRat?_of_ratio h)
  rw [active, standard_eq, List.filter_cons]
  simp only [hle, List.filter_nil]

/-- The standard pipeline prunes from a rounded share of a half on, and does nothing below. -/
theorem run_standard_eq (messages : List Message) {o : Occupancy} {x : Binary64}
    (h : o.ratio = .ok x) :
    standard.run messages o
      = if 1 / 2 ≤ nearest o.share then (Pass.pruner {}).compact messages o.window
        else .ok ⟨messages, Report.empty⟩ := by
  rw [run_eq_runPasses h, active_standard h]
  split_ifs
  · exact runPasses_single _ _ _
  · rfl

/-- **The standard pipeline starts at half of the limit.** With a limit of at most `2 ^ 53` it does
    what its pruner does if there is a limit and at least half of it is in use, and otherwise it
    returns the conversation as it is, with an empty report. With a greater limit it is never late:
    it prunes if at least half is in use. It may be early, because a share of less than a half may
    be rounded to a half. -/
theorem run_standard_half (messages : List Message) (window : Int) :
    (∀ usage limit : Int, usage.natAbs < 2 ^ 1023 → limit ≤ 2 ^ 53 →
      standard.run messages ⟨usage, limit, window⟩
        = if 0 < limit ∧ limit ≤ 2 * usage then (Pass.pruner {}).compact messages window
          else .ok ⟨messages, Report.empty⟩) ∧
    (∀ usage limit : Int, usage.natAbs < 2 ^ 1023 → 2 ^ 53 < limit → limit ≤ 2 * usage →
      standard.run messages ⟨usage, limit, window⟩ = (Pass.pruner {}).compact messages window) ∧
    ∃ usage limit : Int, usage.natAbs < 2 ^ 1023 ∧ 2 ^ 53 < limit ∧ 2 * usage < limit ∧
      standard.run messages ⟨usage, limit, window⟩ = (Pass.pruner {}).compact messages window := by
  refine ⟨?_, ?_, ?_⟩
  · intro usage limit husage hlimit
    obtain ⟨x, hx⟩ := Occupancy.ratio_isOk window limit husage
    rw [run_standard_eq messages hx]
    by_cases hpos : 0 < limit
    · by_cases hhalf : limit ≤ 2 * usage
      · rw [if_pos (half_le_nearest ((Occupancy.half_le_share_iff window hpos).2 hhalf)),
          if_pos ⟨hpos, hhalf⟩]
      · have hbelow := Occupancy.share_le_belowHalf window hpos hlimit (not_le.1 hhalf)
        rw [if_neg (not_le.2 (nearest_lt_half hbelow)), if_neg fun h => hhalf h.2]
    · -- without a limit nothing of it is in use
      have hshare : (Occupancy.mk usage limit window).share = 0 := if_pos (not_lt.1 hpos)
      rw [hshare, nearest_zero, if_neg (by norm_num), if_neg fun h => hpos h.1]
  · intro usage limit husage hlarge hhalf
    obtain ⟨x, hx⟩ := Occupancy.ratio_isOk window limit husage
    have hpos : 0 < limit := by omega
    rw [run_standard_eq messages hx,
      if_pos (half_le_nearest ((Occupancy.half_le_share_iff window hpos).2 hhalf))]
  · have hquotient : quotient (2 ^ 53) (2 ^ 54 + 1) = .ok Pass.half := by decide +kernel
    have hx : (Occupancy.mk (2 ^ 53) (2 ^ 54 + 1) window).ratio = .ok Pass.half := by
      rw [Occupancy.ratio, if_neg (show ¬ (2 ^ 54 + 1 : Int) ≤ 0 by decide), hquotient]
    have hactive : standard.active (.float Pass.half) = [Pass.pruner {}] := by decide +kernel
    refine ⟨2 ^ 53, 2 ^ 54 + 1, by decide +kernel, by decide, by decide, ?_⟩
    rw [run_eq_runPasses hx, hactive, runPasses_single]

/-- An errand that brought back more than the standard pruner lets stand, and a later one. -/
def longErrand : List Message :=
  History.errand 1501 false ++ History.errand 5 false

/-- The standard pruner does shorten the long result. -/
theorem compact_longErrand :
    ∃ done, (Pass.pruner {}).compact longErrand 1 = .ok done ∧ done.messages ≠ longErrand := by
  have hprunable : ∀ m ∈ longErrand, m.Prunable := by
    intro m hm
    rcases List.mem_append.1 hm with hm | hm
    · exact History.prunable_of_mem_errand (by omega) m hm
    · exact History.prunable_of_mem_errand (by omega) m hm
  have htext : ∀ m ∈ longErrand, m.TextResults := fun m hm => (hprunable m hm).textResults
  obtain ⟨done, hdone⟩ := (Pass.pruner {}).compact_isOk 1 htext
    fun m hm call hcall => (hprunable m hm call hcall).fits
  refine ⟨done, hdone, ?_⟩
  intro hsame
  have hmessages := ((Pass.compact_eq_ok_iff htext).1 hdone).1
  have hstart : Window.start longErrand 1 = 2 := by decide +kernel
  rw [hsame, hstart] at hmessages
  -- the tool call of the second message would have to stay as it is
  have hmessage := congrArg (fun messages => messages[1]?) hmessages
  have hcall := (List.cons.inj (congrArg Message.toolCalls (Option.some.inj hmessage))).1
  have hnone := (Strategy.rewriteCall_eq_self_iff rfl).1 hcall.symm
  have hlength : (String.ofList (List.replicate 1501 'x')).length = 1501 := by
    rw [String.length_ofList, List.length_replicate]
  have hnew := standardPruning.newText?_of_long (hprunable _ (List.mem_of_getElem? (i := 1) rfl) _
    List.mem_cons_self) rfl rfl (by rw [hlength]; decide)
  exact absurd (hnew.symm.trans hnone) (Option.some_ne_none _)

/-- With a limit of `2 ^ 53` one token less than a half makes the difference. -/
theorem run_standard_half_exchange :
    (4503599627370496 : Int).natAbs < 2 ^ 1023 ∧ (9007199254740992 : Int) ≤ 2 ^ 53 ∧
      ∃ done, done.messages ≠ longErrand ∧
        standard.run longErrand ⟨4503599627370496, 9007199254740992, 1⟩ = .ok done ∧
        standard.run longErrand ⟨4503599627370495, 9007199254740992, 1⟩
          = .ok ⟨longErrand, Report.empty⟩ ∧
        standard.run longErrand ⟨2 ^ 60, 2 ^ 61, 1⟩ = .ok done := by
  have husage : (4503599627370496 : Int).natAbs < 2 ^ 1023 := by decide +kernel
  obtain ⟨done, hdone, hchanged⟩ := compact_longErrand
  obtain ⟨hexact, hlate, -⟩ := run_standard_half longErrand 1
  have hfrom := hexact 4503599627370496 9007199254740992 husage (by decide)
  have hbelow := hexact 4503599627370495 9007199254740992 (by decide +kernel) (by decide)
  rw [if_pos (by decide)] at hfrom
  rw [if_neg (by decide)] at hbelow
  refine ⟨husage, by decide, done, hchanged, hfrom.trans hdone, hbelow, ?_⟩
  exact (hlate (2 ^ 60) (2 ^ 61) (by decide +kernel) (by decide) (by decide)).trans hdone

end Pipeline

end Parley
