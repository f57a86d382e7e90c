set_option autoImplicit false

/-! # Rounding rationals

Every rounding of the library goes through `nearestEven`: the nearest integer, a half to the even
neighbour. `binaryExponent` is the integer part of the binary logarithm, which says on which grid a
binary floating-point format rounds. -/

namespace Parley.Number

/-- The integer nearest to `q`; of two that are equally near, the even one. -/
def nearestEven (q : Rat) : Int :=
  let below := q.floor
  let part := q - below
  if part < 1 / 2 then below
  else if 1 / 2 < part then below + 1
  else if below % 2 = 0 then below
  else below + 1

/-- The distance of a rational from zero. -/
def magnitude (q : Rat) : Rat :=
  if q < 0 then -q else q

/-- The greatest `e` with `2 ^ e ≤ q`, for `0 < q`. The lengths of numerator and denominator in
    bits leave two candidates, and one comparison decides between them. -/
def binaryExponent (q : Rat) : Int :=
  let guess := (q.num.natAbs.log2 : Int) - (q.den.log2 : Int)
  if (2 : Rat) ^ guess ≤ q then guess else guess - 1

end Parley.Number
