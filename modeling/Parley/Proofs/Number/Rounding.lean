import Parley.Number.Binary64
import Mathlib.Algebra.Order.Floor.Ring
import Mathlib.Data.Rat.Floor
import Mathlib.Tactic.FieldSimp
import Mathlib.Tactic.Linarith
import Mathlib.Tactic.Ring
set_option autoImplicit false

/-! # Exact roundings

A rational that lies on the grid of the format is its own rounding: `Binary64.round` changes no
value `m * 2 ^ k` with `m ≤ 2 ^ 53`, whatever `k` the format allows. A magnitude below `2 ^ 1023`
never becomes infinite.

Both rest on where `binaryExponent` puts a magnitude: between the power of two that it names and
the next one. -/

namespace Parley.Number

/-! ## The nearest integer -/

@[simp] theorem nearestEven_intCast (n : Int) : nearestEven (n : Rat) = n := by
  have hfloor : (n : Rat).floor = n := Rat.floor_intCast n
  simp [nearestEven, hfloor]

theorem nearestEven_eq_floor_or (q : Rat) :
    nearestEven q = ⌊q⌋ ∨ nearestEven q = ⌊q⌋ + 1 := by
  change nearestEven q = q.floor ∨ nearestEven q = q.floor + 1
  unfold nearestEven
  dsimp only
  split_ifs <;> simp

theorem nearestEven_nonneg {q : Rat} (h : 0 ≤ q) : 0 ≤ nearestEven q := by
  have hfloor : 0 ≤ ⌊q⌋ := Int.floor_nonneg.2 h
  rcases nearestEven_eq_floor_or q with hq | hq <;> omega

/-! ## The binary logarithm -/

theorem two_zpow_pos (e : Int) : (0 : Rat) < 2 ^ e := zpow_pos (by norm_num) e

/-- Numerator and denominator bound a positive rational by powers of two, two steps apart. -/
theorem guess_bounds {q : Rat} (h : 0 < q) :
    (2 : Rat) ^ ((q.num.natAbs.log2 : Int) - (q.den.log2 : Int) - 1) ≤ q
      ∧ q < (2 : Rat) ^ ((q.num.natAbs.log2 : Int) - (q.den.log2 : Int) + 1) := by
  have hnum : 0 < q.num := Rat.num_pos.2 h
  have hnum0 : q.num.natAbs ≠ 0 := by omega
  have hden : (0 : Rat) < q.den := by exact_mod_cast q.den_pos
  have hq : q = (q.num.natAbs : Rat) / q.den := by
    conv_lhs => rw [← Rat.num_div_den q]
    congr 1
    rw [← Int.cast_natCast, Int.natAbs_of_nonneg hnum.le]
  have hn : ((2 ^ q.num.natAbs.log2 : Nat) : Rat) ≤ q.num.natAbs := by
    exact_mod_cast Nat.log2_self_le hnum0
  have hn' : (q.num.natAbs : Rat) < ((2 ^ (q.num.natAbs.log2 + 1) : Nat) : Rat) := by
    exact_mod_cast Nat.lt_log2_self
  have hd : ((2 ^ q.den.log2 : Nat) : Rat) ≤ q.den := by
    exact_mod_cast Nat.log2_self_le q.den_nz
  have hd' : (q.den : Rat) < ((2 ^ (q.den.log2 + 1) : Nat) : Rat) := by
    exact_mod_cast Nat.lt_log2_self
  push_cast at hn hn' hd hd'
  rw [pow_succ] at hn' hd'
  have hpn : (0 : Rat) < 2 ^ q.num.natAbs.log2 := by positivity
  have hpd : (0 : Rat) < 2 ^ q.den.log2 := by positivity
  constructor
  · conv_rhs => rw [hq]
    rw [zpow_sub_one₀ (by norm_num), zpow_sub₀ (by norm_num), zpow_natCast, zpow_natCast,
      ← div_eq_mul_inv, div_div, div_le_div_iff₀ (by positivity) hden]
    nlinarith
  · conv_lhs => rw [hq]
    rw [zpow_add_one₀ (by norm_num), zpow_sub₀ (by norm_num), zpow_natCast, zpow_natCast,
      div_mul_eq_mul_div, div_lt_div_iff₀ hden hpd]
    nlinarith

/-- A magnitude lies between the power of two with its exponent and the next one. -/
theorem binaryExponent_bounds {q : Rat} (h : 0 < q) :
    (2 : Rat) ^ binaryExponent q ≤ q ∧ q < (2 : Rat) ^ (binaryExponent q + 1) := by
  obtain ⟨hlow, hhigh⟩ := guess_bounds h
  unfold binaryExponent
  dsimp only
  split_ifs with hguess
  · exact ⟨hguess, hhigh⟩
  · -- the guess was one too high, and then it is an upper bound itself
    rw [sub_add_cancel]
    exact ⟨hlow, not_le.1 hguess⟩

/-- A magnitude below a power of two has a smaller exponent. -/
theorem binaryExponent_lt {q : Rat} {e : Int} (h : 0 < q) (hlt : q < (2 : Rat) ^ e) :
    binaryExponent q < e := by
  have hpow : (2 : Rat) ^ binaryExponent q < 2 ^ e := (binaryExponent_bounds h).1.trans_lt hlt
  exact (zpow_lt_zpow_iff_right₀ (by norm_num)).1 hpow

end Parley.Number

namespace Parley.Binary64

open Number

/-! ## The grid -/

/-- A magnitude `m * 2 ^ k` with `m < 2 ^ 53` lies on a grid that is no coarser than `2 ^ k`. -/
theorem gridExponent_le {m : Nat} {k : Int} (hm : m < 2 ^ 53) (hk : -1074 ≤ k) :
    gridExponent ((m : Rat) * 2 ^ k) ≤ k := by
  unfold gridExponent
  split_ifs with hzero
  · exact hk
  · have hpos : 0 < (m : Rat) * 2 ^ k :=
      lt_of_le_of_ne (mul_nonneg (Nat.cast_nonneg m) (two_zpow_pos k).le) (Ne.symm hzero)
    have hlt : (m : Rat) * 2 ^ k < (2 : Rat) ^ (53 + k) := by
      rw [zpow_add₀ (by norm_num)]
      refine mul_lt_mul_of_pos_right ?_ (two_zpow_pos k)
      exact_mod_cast hm
    have hexp := binaryExponent_lt hpos hlt
    dsimp only
    split_ifs <;> omega

theorem gridExponent_le_970 {size : Rat} (h : 0 ≤ size) (hlt : size < (2 : Rat) ^ (1023 : Int)) :
    gridExponent size ≤ 970 := by
  unfold gridExponent
  split_ifs with hzero
  · omega
  · have hexp := binaryExponent_lt (lt_of_le_of_ne h (Ne.symm hzero)) hlt
    dsimp only
    split_ifs <;> omega

/-! ## What a rounding stands for -/

/-- The magnitude that a magnitude is rounded to. -/
def onGrid (size : Rat) : Rat :=
  (nearestEven (size / (2 : Rat) ^ gridExponent size) : Rat) * (2 : Rat) ^ gridExponent size

/-- A rounding is infinite or stands for the nearest point of the grid, with the sign given. -/
theorem round_cases (negative : Bool) {size : Rat} (h : 0 ≤ size) :
    round negative size = .infinite negative ∧ 970 < gridExponent size ∨
      (round negative size).toRat? = some (if negative then -onGrid size else onGrid size) := by
  have hnear : 0 ≤ nearestEven (size / (2 : Rat) ^ gridExponent size) :=
    nearestEven_nonneg (div_nonneg h (two_zpow_pos _).le)
  unfold round onGrid
  obtain ⟨n, hn⟩ := Int.eq_ofNat_of_zero_le hnear
  simp only [hn, Int.toNat_natCast, Int.cast_natCast]
  by_cases hcarry : n = 9007199254740992
  · rw [if_pos hcarry]
    by_cases hlarge : 970 < gridExponent size
    · rw [if_pos hlarge]
      exact Or.inl ⟨rfl, hlarge⟩
    · -- the carry into the next power of two: half the mantissa on a grid twice as coarse
      have hvalue : ((4503599627370496 : Nat) : Rat) * 2 ^ (gridExponent size + 1)
          = (n : Rat) * 2 ^ gridExponent size := by
        rw [hcarry, zpow_add_one₀ (by norm_num)]
        push_cast
        ring
      rw [if_neg hlarge]
      simp only [toRat?, hvalue, or_true]
  · rw [if_neg hcarry]
    by_cases hlarge : 971 < gridExponent size
    · rw [if_pos hlarge]
      exact Or.inl ⟨rfl, by omega⟩
    · rw [if_neg hlarge]
      simp only [toRat?, or_true]

/-- Below `2 ^ 1023` a rounding is finite: the nearest point of the grid, with the sign given. -/
theorem toRat?_round (negative : Bool) {size : Rat} (h : 0 ≤ size)
    (hlt : size < (2 : Rat) ^ (1023 : Int)) :
    (round negative size).toRat? = some (if negative then -onGrid size else onGrid size) := by
  have hgrid := gridExponent_le_970 h hlt
  rcases round_cases negative h with ⟨-, hlarge⟩ | hfinite
  · omega
  · exact hfinite

theorem onGrid_eq_self_of_lt {m : Nat} {k : Int} (hm : m < 2 ^ 53) (hk : -1074 ≤ k) :
    onGrid ((m : Rat) * 2 ^ k) = (m : Rat) * 2 ^ k := by
  obtain ⟨d, hd⟩ := Int.le.dest (gridExponent_le hm hk)
  have hscaled : (m : Rat) * 2 ^ k / 2 ^ gridExponent ((m : Rat) * 2 ^ k)
      = ((m * 2 ^ d : Nat) : Int) := by
    rw [div_eq_iff (two_zpow_pos _).ne']
    push_cast
    calc (m : Rat) * 2 ^ k
        = m * 2 ^ (gridExponent ((m : Rat) * 2 ^ k) + d) := by rw [hd]
      _ = m * 2 ^ d * 2 ^ gridExponent ((m : Rat) * 2 ^ k) := by
        rw [zpow_add₀ (by norm_num), zpow_natCast]
        ring
  unfold onGrid
  rw [hscaled, nearestEven_intCast, ← hscaled]
  exact div_mul_cancel₀ _ (two_zpow_pos _).ne'

/-- A magnitude that the format can hold is its own rounding. -/
theorem onGrid_eq_self {m : Nat} {k : Int} (hm : m ≤ 2 ^ 53) (hk : -1074 ≤ k) :
    onGrid ((m : Rat) * 2 ^ k) = (m : Rat) * 2 ^ k := by
  rcases hm.lt_or_eq with hlt | rfl
  · exact onGrid_eq_self_of_lt hlt hk
  · -- the power of two where the mantissas end is a small mantissa on a coarser grid
    have hpower : ((2 ^ 53 : Nat) : Rat) * 2 ^ k = ((1 : Nat) : Rat) * 2 ^ (53 + k) := by
      rw [zpow_add₀ (by norm_num)]
      norm_num
    rw [hpower]
    exact onGrid_eq_self_of_lt (by norm_num) (by omega)

end Parley.Binary64
