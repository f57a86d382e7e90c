import Parley.Proofs.Budget
import Parley.Prompt.Instructions
set_option autoImplicit false

/-! # Results that stay finite

A rounding moves a magnitude below `2 ^ 1023` by at most one step of its grid, and no grid is
coarser than `2 ^ 970` there (`onGrid_le`). So a quotient of integers is finite as long as its
dividend is not close to the end of the format, and can still be multiplied by a hundred: every
share of a context that is not absurdly overdrawn has a percentage (`percent_isOk`). From `2 ^ 1024`
on, a magnitude is rounded to infinity, so a quotient that exists was smaller
(`lt_of_quotient_eq_ok`). -/

namespace Parley.Binary64

open Number

theorem magnitude_eq_abs (q : Rat) : magnitude q = |q| := by
  unfold magnitude
  split_ifs with hneg
  · exact (abs_of_neg hneg).symm
  · exact (abs_of_nonneg (not_lt.1 hneg)).symm

theorem nearestEven_le (q : Rat) : (nearestEven q : Rat) ≤ q + 1 := by
  have hfloor := Int.floor_le q
  rcases nearestEven_eq_floor_or q with hq | hq
  · rw [hq]
    linarith
  · rw [hq]
    push_cast
    linarith

theorem onGrid_nonneg {size : Rat} (h : 0 ≤ size) : 0 ≤ onGrid size := by
  have hnear : 0 ≤ nearestEven (size / (2 : Rat) ^ gridExponent size) :=
    nearestEven_nonneg (div_nonneg h (two_zpow_pos _).le)
  exact mul_nonneg (by exact_mod_cast hnear) (two_zpow_pos _).le

/-- A rounding is at most one step of the grid away. -/
theorem onGrid_le {size : Rat} (h : 0 ≤ size) (hlt : size < (2 : Rat) ^ (1023 : Int)) :
    onGrid size ≤ size + 2 ^ (970 : Int) := by
  have hpos := two_zpow_pos (gridExponent size)
  have hstep : (2 : Rat) ^ gridExponent size ≤ 2 ^ (970 : Int) :=
    zpow_le_zpow_right₀ (by norm_num) (gridExponent_le_970 h hlt)
  calc onGrid size
      ≤ (size / 2 ^ gridExponent size + 1) * 2 ^ gridExponent size :=
        mul_le_mul_of_nonneg_right (nearestEven_le _) hpos.le
    _ = size + 2 ^ gridExponent size := by field_simp
    _ ≤ size + 2 ^ (970 : Int) := by linarith

/-- A magnitude beyond the format is rounded to infinity. -/
theorem round_eq_infinite (negative : Bool) {size : Rat} (h : (2 : Rat) ^ (1024 : Int) ≤ size) :
    round negative size = .infinite negative := by
  have hpos : 0 < size := (two_zpow_pos 1024).trans_le h
  have hlarge : 1024 < binaryExponent size + 1 := by
    rw [← zpow_lt_zpow_iff_right₀ (a := (2 : Rat)) (by norm_num)]
    exact h.trans_lt (binaryExponent_bounds hpos).2
  have hgrid : 971 < gridExponent size := by
    unfold gridExponent
    rw [if_neg hpos.ne']
    dsimp only
    split_ifs
    · omega
    · omega
  unfold round
  dsimp only
  split_ifs
  · rfl
  · omega
  · rfl

end Parley.Binary64

namespace Parley

open Number Binary64

/-- A quotient by a positive integer is finite and hardly greater than its dividend. -/
theorem quotient_isFinite {a b : Int} (ha : |(a : Rat)| < 2 ^ (1023 : Int)) (hb : 0 < b) :
    ∃ q v, quotient a b = .ok q ∧ q.toRat? = some v ∧ |v| ≤ |(a : Rat)| + 2 ^ (970 : Int) := by
  have hb' : (1 : Rat) ≤ |(b : Rat)| := by
    rw [abs_of_pos (by exact_mod_cast hb)]
    exact_mod_cast hb
  have hsize : magnitude ((a : Rat) / b) ≤ |(a : Rat)| := by
    rw [magnitude_eq_abs, abs_div]
    exact div_le_self (abs_nonneg _) hb'
  have hnonneg : 0 ≤ magnitude ((a : Rat) / b) := by
    rw [magnitude_eq_abs]
    exact abs_nonneg _
  have hlt := hsize.trans_lt ha
  obtain ⟨q, hq, hvalue⟩ := Budget.quotient?_eq_some
    (toRat?_round (decide (a < 0) != decide (b < 0)) hnonneg hlt)
  refine ⟨q, _, by simp only [quotient, hq], hvalue, ?_⟩
  have hround : |onGrid (magnitude ((a : Rat) / b))| ≤ |(a : Rat)| + 2 ^ (970 : Int) := by
    rw [abs_of_nonneg (onGrid_nonneg hnonneg)]
    have hstep := onGrid_le hnonneg hlt
    linarith
  split_ifs
  · rwa [abs_neg]
  · exact hround

/-- A quotient that there is was not beyond the format. -/
theorem lt_of_quotient_eq_ok {a b : Int} {q : Binary64} (h : quotient a b = .ok q) :
    |(a : Rat) / b| < (2 : Rat) ^ (1024 : Int) := by
  by_contra hlarge
  rw [← magnitude_eq_abs] at hlarge
  have hround := round_eq_infinite (decide (a < 0) != decide (b < 0)) (not_lt.1 hlarge)
  simp only [quotient, quotient?, hround, reduceCtorEq] at h

theorem Budget.lt_of_tokens_eq_ok {chars n : Int} (h : tokens chars = .ok n) :
    chars.natAbs < 2 ^ 1026 := by
  unfold tokens at h
  cases hq : quotient chars charsPerToken with
  | error fault =>
      rw [hq] at h
      cases h
  | ok q =>
      have hlt := lt_of_quotient_eq_ok hq
      rw [← magnitude_eq_abs, charsPerToken, magnitude_div_four] at hlt
      have hchars : (chars.natAbs : Rat) < (2 : Rat) ^ (1026 : Int) := by
        calc (chars.natAbs : Rat)
            = chars.natAbs * 2 ^ (-2 : Int) * 2 ^ (2 : Int) := by
              rw [mul_assoc, ← zpow_add₀ (by norm_num)]
              norm_num
          _ < 2 ^ (1024 : Int) * 2 ^ (2 : Int) := mul_lt_mul_of_pos_right hlt (two_zpow_pos 2)
          _ = 2 ^ (1026 : Int) := by rw [← zpow_add₀ (by norm_num)]; norm_num
      exact_mod_cast hchars

end Parley
