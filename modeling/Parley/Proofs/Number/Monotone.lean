import Parley.Proofs.Number.Bounds
import Parley.Proofs.Number.Order
set_option autoImplicit false

/-! # Roundings keep the order

Of two magnitudes the larger one lies on a grid that is no finer. On one grid the nearest point moves
up with the magnitude. Between two grids stands the power of two at which the finer one ends: it is a
point of both, so neither rounding can cross it (`onGrid_le_onGrid`). With signs this makes rounding
monotone on all rationals (`nearest_le_nearest`), and the quotients of integers with it: more usage
of the same limit is never a smaller ratio (`Occupancy.ratio_le_ratio`). -/

namespace Parley.Number

/-! ## The nearest integer -/

theorem abs_nearestEven_sub_le (q : Rat) : |(nearestEven q : Rat) - q| ≤ 1 / 2 := by
  have hlow : (q.floor : Rat) ≤ q := Int.floor_le q
  have hhigh : q < (q.floor : Rat) + 1 := Int.lt_floor_add_one q
  rw [abs_le]
  unfold nearestEven
  dsimp only
  split_ifs <;> push_cast <;> constructor <;> linarith

theorem nearestEven_le_nearestEven {p q : Rat} (h : p ≤ q) : nearestEven p ≤ nearestEven q := by
  by_contra hless
  have hstep : nearestEven q + 1 ≤ nearestEven p := by omega
  have hstep' : (nearestEven q : Rat) + 1 ≤ nearestEven p := by exact_mod_cast hstep
  have hp := (abs_le.1 (abs_nearestEven_sub_le p)).2
  have hq := (abs_le.1 (abs_nearestEven_sub_le q)).1
  -- both errors are a half, so `p` and `q` are the same number
  obtain rfl : p = q := by linarith
  exact hless (le_refl _)

/-! ## The grid -/

theorem binaryExponent_le_binaryExponent {p q : Rat} (hp : 0 < p) (h : p ≤ q) :
    binaryExponent p ≤ binaryExponent q := by
  have hq : q < (2 : Rat) ^ (binaryExponent q + 1) := (binaryExponent_bounds (hp.trans_le h)).2
  have hlt := binaryExponent_lt hp (h.trans_lt hq)
  omega

end Parley.Number

namespace Parley.Binary64

open Number

theorem le_gridExponent (size : Rat) : -1074 ≤ gridExponent size := by
  unfold gridExponent
  dsimp only
  split_ifs <;> omega

/-- A grid above the finest one is that of the magnitude's 53 significant bits. -/
theorem two_zpow_le_of_gridExponent {size : Rat} (h : 0 ≤ size) (hgrid : -1074 < gridExponent size) :
    (2 : Rat) ^ (gridExponent size + 52) ≤ size := by
  unfold gridExponent at hgrid ⊢
  split_ifs at hgrid ⊢ with hzero
  · omega
  · dsimp only at hgrid ⊢
    have hbounds := binaryExponent_bounds (lt_of_le_of_ne h (Ne.symm hzero))
    split_ifs at hgrid ⊢
    · omega
    · rw [sub_add_cancel]
      exact hbounds.1

/-- The grid of a magnitude has at most `2 ^ 53` points up to it. -/
theorem lt_two_zpow_gridExponent {size : Rat} (h : 0 ≤ size) :
    size < (2 : Rat) ^ (gridExponent size + 53) := by
  unfold gridExponent
  split_ifs with hzero
  · rw [hzero]
    exact two_zpow_pos _
  · have hbounds := binaryExponent_bounds (lt_of_le_of_ne h (Ne.symm hzero))
    dsimp only
    refine hbounds.2.trans_le (zpow_le_zpow_right₀ (by norm_num) ?_)
    split_ifs <;> omega

theorem gridExponent_le_gridExponent {p q : Rat} (hp : 0 ≤ p) (h : p ≤ q) :
    gridExponent p ≤ gridExponent q := by
  have hleast := le_gridExponent q
  unfold gridExponent at hleast ⊢
  by_cases hzero : p = 0
  · rw [if_pos hzero]
    exact hleast
  · have hpos : 0 < p := lt_of_le_of_ne hp (Ne.symm hzero)
    have hexponent := binaryExponent_le_binaryExponent hpos h
    rw [if_neg hzero, if_neg (hpos.trans_le h).ne']
    dsimp only
    split_ifs <;> omega

/-! ## Magnitudes -/

/-- A point of its grid that a magnitude reaches is not above its rounding. -/
theorem le_onGrid {size : Rat} {n : Int} (h : (n : Rat) * 2 ^ gridExponent size ≤ size) :
    (n : Rat) * 2 ^ gridExponent size ≤ onGrid size := by
  have hscaled : (n : Rat) ≤ size / 2 ^ gridExponent size := (le_div_iff₀ (two_zpow_pos _)).2 h
  have hnear := nearestEven_le_nearestEven hscaled
  rw [nearestEven_intCast] at hnear
  exact mul_le_mul_of_nonneg_right (by exact_mod_cast hnear) (two_zpow_pos _).le

/-- A point of its grid that a magnitude does not exceed is not below its rounding. -/
theorem onGrid_le_of_le {size : Rat} {n : Int} (h : size ≤ (n : Rat) * 2 ^ gridExponent size) :
    onGrid size ≤ (n : Rat) * 2 ^ gridExponent size := by
  have hscaled : size / 2 ^ gridExponent size ≤ (n : Rat) := (div_le_iff₀ (two_zpow_pos _)).2 h
  have hnear := nearestEven_le_nearestEven hscaled
  rw [nearestEven_intCast] at hnear
  exact mul_le_mul_of_nonneg_right (by exact_mod_cast hnear) (two_zpow_pos _).le

/-- Rounding keeps the order of magnitudes. -/
theorem onGrid_le_onGrid {p q : Rat} (hp : 0 ≤ p) (h : p ≤ q) : onGrid p ≤ onGrid q := by
  rcases (gridExponent_le_gridExponent hp h).eq_or_lt with heq | hlt
  · have hscaled : p / 2 ^ gridExponent p ≤ q / 2 ^ gridExponent p :=
      div_le_div_of_nonneg_right h (two_zpow_pos _).le
    unfold onGrid
    rw [← heq]
    exact mul_le_mul_of_nonneg_right (by exact_mod_cast nearestEven_le_nearestEven hscaled)
      (two_zpow_pos _).le
  · -- the power of two at which the finer grid ends stands between the two
    have hbelow : onGrid p ≤ ((2 ^ 53 : Int) : Rat) * 2 ^ gridExponent p := by
      refine onGrid_le_of_le ?_
      have hend := (lt_two_zpow_gridExponent hp).le
      rwa [zpow_add₀ (by norm_num), mul_comm] at hend
    have habove : ((2 ^ 52 : Int) : Rat) * 2 ^ gridExponent q ≤ onGrid q := by
      refine le_onGrid ?_
      have hstart := two_zpow_le_of_gridExponent (hp.trans h) ((le_gridExponent p).trans_lt hlt)
      rwa [zpow_add₀ (by norm_num), mul_comm] at hstart
    calc onGrid p
        ≤ ((2 ^ 53 : Int) : Rat) * 2 ^ gridExponent p := hbelow
      _ = ((2 ^ 52 : Int) : Rat) * 2 ^ (gridExponent p + 1) := by
        rw [zpow_add_one₀ (by norm_num)]
        push_cast
        ring
      _ ≤ ((2 ^ 52 : Int) : Rat) * 2 ^ gridExponent q := by
        gcongr
        · norm_num
        · omega
      _ ≤ onGrid q := habove

/-! ## Rationals -/

/-- The rational that a rational is rounded to, where the format has no greatest value. -/
def nearest (q : Rat) : Rat :=
  if q < 0 then -onGrid (-q) else onGrid q

theorem nearest_of_nonneg {q : Rat} (h : 0 ≤ q) : nearest q = onGrid q :=
  if_neg (not_lt.2 h)

theorem nearest_le_nearest {p q : Rat} (h : p ≤ q) : nearest p ≤ nearest q := by
  unfold nearest
  split_ifs with hp hq hq
  · exact neg_le_neg (onGrid_le_onGrid (by linarith) (neg_le_neg h))
  · have hlow := onGrid_nonneg (show 0 ≤ -p by linarith)
    have hhigh := onGrid_nonneg (not_lt.1 hq)
    linarith
  · linarith
  · exact onGrid_le_onGrid (not_lt.1 hp) h

@[simp] theorem onGrid_zero : onGrid 0 = 0 := by
  have hzero := @onGrid_eq_self 0 0 (by omega) (by omega)
  rwa [Nat.cast_zero, zero_mul] at hzero

@[simp] theorem nearest_zero : nearest 0 = 0 := by
  rw [nearest_of_nonneg (le_refl 0), onGrid_zero]

/-- A magnitude with the sign of a rational is rounded as the rational is. A zero may have either
    sign. -/
theorem signed_onGrid {negative : Bool} {q : Rat} (hneg : q < 0 → negative = true)
    (hpos : 0 < q → negative = false) :
    (if negative then -onGrid (magnitude q) else onGrid (magnitude q)) = nearest q := by
  rw [magnitude_eq_abs]
  rcases lt_trichotomy q 0 with hq | rfl | hq
  · rw [hneg hq, if_pos rfl, abs_of_neg hq, nearest, if_pos hq]
  · simp
  · rw [hpos hq, if_neg (by simp), abs_of_pos hq, nearest_of_nonneg hq.le]

/-- A quotient that there is stands for the rounded rational. -/
theorem toRat?_of_quotient? {a b : Int} {x : Binary64} (h : quotient? a b = some x) :
    x.toRat? = some (nearest ((a : Rat) / b)) := by
  have hnonneg : 0 ≤ magnitude ((a : Rat) / b) := by
    rw [magnitude_eq_abs]
    exact abs_nonneg _
  unfold quotient? at h
  rcases round_cases (decide (a < 0) != decide (b < 0)) hnonneg with ⟨hinfinite, -⟩ | hfinite
  · rw [hinfinite] at h
    exact absurd h (by simp)
  · have hx : x = round (decide (a < 0) != decide (b < 0)) (magnitude ((a : Rat) / b)) := by
      split at h
      · exact absurd h (by simp)
      · exact (Option.some.inj h).symm
    rw [hx, hfinite, signed_onGrid]
    · intro hneg
      rcases div_neg_iff.1 hneg with ⟨ha, hb⟩ | ⟨ha, hb⟩
      · simp [not_lt.2 (Int.cast_pos.1 ha).le, Int.cast_lt_zero.1 hb]
      · simp [Int.cast_lt_zero.1 ha, not_lt.2 (Int.cast_pos.1 hb).le]
    · intro hpos
      rcases div_pos_iff.1 hpos with ⟨ha, hb⟩ | ⟨ha, hb⟩
      · simp [not_lt.2 (Int.cast_pos.1 ha).le, not_lt.2 (Int.cast_pos.1 hb).le]
      · simp [Int.cast_lt_zero.1 ha, Int.cast_lt_zero.1 hb]

end Parley.Binary64

namespace Parley

open Number Binary64

/-! ## Ratios -/

theorem Number.place?_float {x : Binary64} {v : Rat} (h : x.toRat? = some v) :
    (Number.float x).place? = some (.at v) := by
  cases x with
  | nan negative => exact absurd h (by simp [toRat?])
  | infinite negative => exact absurd h (by simp [toRat?])
  | finite negative mantissa exponent =>
      rw [toRat?, Option.some.injEq] at h
      rw [place?, ← h]

theorem Number.float_le_float_iff {x y : Binary64} {v w : Rat} (hx : x.toRat? = some v)
    (hy : y.toRat? = some w) : (Number.float x).le (.float y) = true ↔ v ≤ w := by
  rw [le, place?_float hx, place?_float hy]
  exact decide_eq_true_iff

namespace Occupancy

/-- The part of the limit that is in use, before it is rounded. -/
def share (o : Occupancy) : Rat :=
  if o.limit ≤ 0 then 0 else (o.usage : Rat) / o.limit

/-- A ratio that there is stands for the rounded share. -/
theorem toRat?_of_ratio {o : Occupancy} {x : Binary64} (h : o.ratio = .ok x) :
    x.toRat? = some (nearest o.share) := by
  unfold ratio at h
  unfold share
  split_ifs at h ⊢ with hlimit
  · rw [Except.ok.injEq] at h
    rw [← h, nearest_zero]
    simp [zero, toRat?]
  · unfold Parley.quotient at h
    cases hquotient : Binary64.quotient? o.usage o.limit with
    | none => simp [hquotient] at h
    | some y =>
        simp only [hquotient, Except.ok.injEq] at h
        exact h ▸ toRat?_of_quotient? hquotient

theorem share_le_share {usage usage' : Int} (limit window : Int) (h : usage ≤ usage') :
    (Occupancy.mk usage limit window).share ≤ (Occupancy.mk usage' limit window).share := by
  unfold share
  dsimp only
  split_ifs with hnone
  · exact le_refl _
  · have hpos : (0 : Rat) < limit := by exact_mod_cast not_le.1 hnone
    exact div_le_div_of_nonneg_right (by exact_mod_cast h) hpos.le

/-- More usage of the same limit is no smaller ratio. -/
theorem ratio_le_ratio {usage usage' limit window : Int} {x x' : Binary64} (h : usage ≤ usage')
    (hx : (Occupancy.mk usage limit window).ratio = .ok x)
    (hx' : (Occupancy.mk usage' limit window).ratio = .ok x') :
    (Number.float x).le (.float x') = true :=
  (float_le_float_iff (toRat?_of_ratio hx) (toRat?_of_ratio hx')).2
    (nearest_le_nearest (share_le_share limit window h))

end Occupancy

end Parley
