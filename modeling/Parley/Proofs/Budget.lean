import Parley.Budget
import Parley.Proofs.Number.Rounding
set_option autoImplicit false

/-! # Exact token budgets

A number of characters in tokens is a quotient that was rounded to a float and then up to an
integer. Up to `2 ^ 53` characters the float is the exact quotient, so the tokens are the exact
ceiling (`tokens_eq_ceil`). For fewer than `2 ^ 63` characters, more than a text in memory can
have, there is a float and the tokens are there (`tokens_isOk`). -/

namespace Parley.Budget

open Number Binary64

/-! ## The quotient -/

theorem ceil_eq (q : Rat) : q.ceil = ⌈q⌉ :=
  Rat.ceil_eq_neg_floor_neg q

theorem natCast_lt_zpow {n k : Nat} {e : Int} (h : n < 2 ^ k) (hk : (k : Int) ≤ e) :
    (n : Rat) < 2 ^ e := by
  have hcast : (n : Rat) < 2 ^ (k : Int) := by exact_mod_cast h
  exact hcast.trans_le (zpow_le_zpow_right₀ (by norm_num) hk)

theorem natCast_natAbs (n : Int) : (n.natAbs : Rat) = |(n : Rat)| := by
  rw [Nat.cast_natAbs, Int.cast_abs]

theorem abs_intCast_lt_zpow {n : Int} {k : Nat} {e : Int} (h : n.natAbs < 2 ^ k)
    (hk : (k : Int) ≤ e) : |(n : Rat)| < 2 ^ e := by
  rw [← natCast_natAbs]
  exact natCast_lt_zpow h hk

theorem magnitude_div_four (n : Int) :
    magnitude ((n : Rat) / ((4 : Int) : Rat)) = (n.natAbs : Rat) * 2 ^ (-2 : Int) := by
  have hfour : (2 : Rat) ^ (-2 : Int) = 1 / 4 := by norm_num
  rw [natCast_natAbs, hfour]
  unfold magnitude
  push_cast
  split_ifs with hneg
  · have hn : (n : Rat) < 0 := by linarith
    rw [abs_of_neg hn]
    ring
  · have hn : 0 ≤ (n : Rat) := by linarith
    rw [abs_of_nonneg hn]
    ring

theorem quotient?_eq_some {a b : Int} {v : Rat}
    (h : (round (decide (a < 0) != decide (b < 0))
      (magnitude ((a : Rat) / (b : Rat)))).toRat? = some v) :
    ∃ q, quotient? a b = some q ∧ q.toRat? = some v := by
  unfold quotient?
  split
  · next negative hinf =>
      rw [hinf] at h
      exact absurd h (by simp [toRat?])
  · exact ⟨_, rfl, h⟩

/-- Up to `2 ^ 1025` characters have a quotient: the rounded quarter, with the sign of the
    characters. -/
theorem quotient_chars {chars : Int} (h : (chars.natAbs : Rat) < 2 ^ (1025 : Int)) :
    ∃ q, quotient chars charsPerToken = .ok q ∧
      q.toRat? = some (if chars < 0 then -onGrid ((chars.natAbs : Rat) * 2 ^ (-2 : Int))
        else onGrid ((chars.natAbs : Rat) * 2 ^ (-2 : Int))) := by
  have hnonneg : (0 : Rat) ≤ (chars.natAbs : Rat) * 2 ^ (-2 : Int) :=
    mul_nonneg (Nat.cast_nonneg _) (two_zpow_pos _).le
  have hlt : (chars.natAbs : Rat) * 2 ^ (-2 : Int) < (2 : Rat) ^ (1023 : Int) := by
    calc (chars.natAbs : Rat) * 2 ^ (-2 : Int)
        < 2 ^ (1025 : Int) * 2 ^ (-2 : Int) := mul_lt_mul_of_pos_right h (two_zpow_pos _)
      _ = 2 ^ (1023 : Int) := by rw [← zpow_add₀ (by norm_num)]; norm_num
  have hsign : (decide (chars < 0) != decide ((4 : Int) < 0)) = decide (chars < 0) := by simp
  have hround := toRat?_round (decide (chars < 0) != decide ((4 : Int) < 0)) hnonneg hlt
  rw [← magnitude_div_four, hsign] at hround
  obtain ⟨q, hq, hvalue⟩ := quotient?_eq_some (b := 4) (by rw [hsign]; exact hround)
  refine ⟨q, ?_, ?_⟩
  · simp only [quotient, charsPerToken, hq]
  · rw [hvalue, magnitude_div_four]
    simp

/-! ## Tokens -/

theorem tokens_isOk {chars : Int} (h : chars.natAbs < 2 ^ 63) : ∃ n, tokens chars = .ok n := by
  obtain ⟨q, hq, hvalue⟩ := quotient_chars (natCast_lt_zpow h (by norm_num))
  simp only [tokens, hq, ceil?, hvalue, bind, Except.bind, Option.map_some]
  exact ⟨_, rfl⟩

/-- The tokens of up to `2 ^ 53` characters are an exact ceiling. -/
theorem tokens_eq_ceil {chars : Int} (h : chars.natAbs ≤ 2 ^ 53) :
    tokens chars = .ok ⌈(chars : Rat) / 4⌉ := by
  have hlt : chars.natAbs < 2 ^ 54 := h.trans_lt (by norm_num)
  obtain ⟨q, hq, hvalue⟩ := quotient_chars (natCast_lt_zpow hlt (by norm_num))
  have hexact : q.toRat? = some ((chars : Rat) / 4) := by
    rw [hvalue, onGrid_eq_self h (by norm_num)]
    congr 1
    split_ifs with hneg
    · rw [← Int.cast_natCast, Int.ofNat_natAbs_of_nonpos hneg.le]
      norm_num
      ring
    · rw [← Int.cast_natCast, Int.natAbs_of_nonneg (not_lt.1 hneg)]
      norm_num
      ring
  simp only [tokens, hq, ceil?, hexact, bind, Except.bind, Option.map_some, ceil_eq]
  rfl

/-- The tokens saved when a text loses up to `2 ^ 53` characters. -/
theorem saved_eq_ceil {sizeBefore sizeAfter : Int} (h : (sizeBefore - sizeAfter).natAbs ≤ 2 ^ 53) :
    saved sizeBefore sizeAfter = .ok ⌈((sizeBefore - sizeAfter : Int) : Rat) / 4⌉ :=
  tokens_eq_ceil h

end Parley.Budget
