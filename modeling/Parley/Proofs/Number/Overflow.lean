import Parley.Proofs.Number.Monotone
set_option autoImplicit false

/-! # Where floats end

The coarsest grid of the format has steps of `2 ^ 971` and ends below `2 ^ 1024`. A magnitude in its
last half step is rounded up to `2 ^ 1024`, a tie included, because the last point of the grid is an
odd one. So a magnitude becomes infinite exactly from `overflow` on (`round_eq_infinite_iff`), and
these are the quotients that there is no float for (`quotient?_eq_none_iff`). -/

namespace Parley.Binary64

open Number

/-- The least magnitude that is rounded to infinity: half a step below `2 ^ 1024`. -/
def overflow : Rat := 2 ^ (1024 : Int) - 2 ^ (970 : Int)

theorem overflow_le : overflow ≤ 2 ^ (1024 : Int) :=
  sub_le_self _ (two_zpow_pos 970).le

theorem two_zpow_lt_overflow : (2 : Rat) ^ (1023 : Int) < overflow := by
  have hlast : (2 : Rat) ^ (970 : Int) < 2 ^ (1023 : Int) :=
    zpow_lt_zpow_right₀ (by norm_num) (by norm_num)
  have hdouble : (2 : Rat) ^ (1024 : Int) = 2 ^ (1023 : Int) * 2 := zpow_add_one₀ (by norm_num) 1023
  rw [overflow, lt_sub_iff_add_lt, hdouble, mul_two]
  exact add_lt_add_right hlast _

/-- Half a step below the end of the grid is where it begins to be rounded to. -/
theorem le_div_grid_iff {size : Rat} :
    2 ^ 53 - 1 / 2 ≤ size / (2 : Rat) ^ (971 : Int) ↔ overflow ≤ size := by
  have hend : overflow = (2 ^ 53 - 1 / 2) * (2 : Rat) ^ (971 : Int) := by
    have hgrid : (2 : Rat) ^ (971 : Int) = 2 ^ (970 : Int) * 2 := zpow_add_one₀ (by norm_num) 970
    have hlimit : (2 : Rat) ^ (1024 : Int) = 2 ^ (970 : Int) * 2 ^ 54 :=
      zpow_add₀ (by norm_num) 970 54
    rw [overflow, hgrid, hlimit]
    ring
  rw [hend, le_div_iff₀ (two_zpow_pos 971)]

/-- Below `2 ^ 53` it is the last half step that is rounded up to it. The half itself is a tie
    between an odd number and an even one. -/
theorem nearestEven_eq_limit_iff {q : Rat} (h : q < 2 ^ 53) :
    nearestEven q = 9007199254740992 ↔ 2 ^ 53 - 1 / 2 ≤ q := by
  constructor
  · intro hq
    have herror := (abs_le.1 (abs_nearestEven_sub_le q)).2
    rw [hq] at herror
    push_cast at herror
    linarith
  · intro hq
    have htie : nearestEven (2 ^ 53 - 1 / 2) = 9007199254740992 := by decide +kernel
    have hlow := nearestEven_le_nearestEven hq
    have hhigh := nearestEven_le_nearestEven (q := ((9007199254740992 : Int) : Rat))
      (h.le.trans (by norm_num))
    rw [nearestEven_intCast] at hhigh
    omega

/-- Between the last two powers of two the grid is the coarsest one. -/
theorem gridExponent_eq_971 {size : Rat} (h : (2 : Rat) ^ (1023 : Int) ≤ size)
    (hlt : size < (2 : Rat) ^ (1024 : Int)) : gridExponent size = 971 := by
  have hpos : 0 < size := (two_zpow_pos 1023).trans_le h
  have hhigh := binaryExponent_lt hpos hlt
  have hlow : 1023 < binaryExponent size + 1 := by
    rw [← zpow_lt_zpow_iff_right₀ (a := (2 : Rat)) (by norm_num)]
    exact h.trans_lt (binaryExponent_bounds hpos).2
  unfold gridExponent
  rw [if_neg hpos.ne']
  dsimp only
  split_ifs <;> omega

/-- A magnitude is rounded to infinity exactly from `overflow` on. -/
theorem round_eq_infinite_iff (negative : Bool) {size : Rat} (h : 0 ≤ size) :
    round negative size = .infinite negative ↔ overflow ≤ size := by
  rcases lt_or_ge size ((2 : Rat) ^ (1023 : Int)) with hsmall | hlarge
  · have hless : size < overflow := hsmall.trans two_zpow_lt_overflow
    have hfinite := toRat?_round negative h hsmall
    refine iff_of_false (fun hinfinite => ?_) (not_le.2 hless)
    rw [hinfinite] at hfinite
    simp [toRat?] at hfinite
  · rcases lt_or_ge size ((2 : Rat) ^ (1024 : Int)) with hlast | hbeyond
    · have hpoint : size / (2 : Rat) ^ (971 : Int) < 2 ^ 53 := by
        rw [div_lt_iff₀ (two_zpow_pos 971)]
        calc size
            < 2 ^ (1024 : Int) := hlast
          _ = 2 ^ 53 * 2 ^ (971 : Int) := zpow_add₀ (by norm_num) 53 971
      have hnonneg : 0 ≤ nearestEven (size / (2 : Rat) ^ (971 : Int)) :=
        nearestEven_nonneg (div_nonneg h (two_zpow_pos 971).le)
      rw [← le_div_grid_iff, ← nearestEven_eq_limit_iff hpoint]
      unfold round
      rw [gridExponent_eq_971 hlarge hlast]
      dsimp only
      by_cases hcarry : nearestEven (size / (2 : Rat) ^ (971 : Int)) = 9007199254740992
      · rw [hcarry]
        exact iff_of_true rfl rfl
      · rw [if_neg (by omega), if_neg (by omega)]
        exact iff_of_false (by simp) hcarry
    · exact iff_of_true (round_eq_infinite negative hbeyond) (overflow_le.trans hbeyond)

/-- There is no float for a quotient exactly from `overflow` on. -/
theorem quotient?_eq_none_iff {a b : Int} :
    quotient? a b = none ↔ overflow ≤ |(a : Rat) / b| := by
  have hnonneg : 0 ≤ magnitude ((a : Rat) / b) := by
    rw [magnitude_eq_abs]
    exact abs_nonneg _
  rw [← magnitude_eq_abs, ← round_eq_infinite_iff (decide (a < 0) != decide (b < 0)) hnonneg]
  rcases round_cases (decide (a < 0) != decide (b < 0)) hnonneg with ⟨hinfinite, -⟩ | hfinite
  · refine iff_of_true ?_ hinfinite
    rw [quotient?, hinfinite]
  · obtain ⟨x, hx, hvalue⟩ := Budget.quotient?_eq_some hfinite
    refine iff_of_false (by simp [hx]) fun hinfinite => ?_
    rw [hinfinite] at hfinite
    simp [toRat?] at hfinite

end Parley.Binary64
