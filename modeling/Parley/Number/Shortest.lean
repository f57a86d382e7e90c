import Parley.Number.Binary64
set_option autoImplicit false

/-! # The shortest decimal that reads back

A finite binary value is written with the fewest decimal digits from which it can be read back
exactly, and of the decimals of that length with the one nearest to it. At each length only the two
neighbours of the value on the decimal grid can be nearest, so these two are tried, the nearer one
first; seventeen digits always suffice. -/

namespace Parley

/-- The decimal `digits * 10 ^ scale`, a magnitude without a sign. -/
structure Decimal where
  digits : Nat
  scale : Int
deriving DecidableEq, Repr

namespace Decimal

/-- The rational that a decimal stands for. -/
def toRat (d : Decimal) : Rat :=
  (d.digits : Rat) * (10 : Rat) ^ d.scale

/-- The greatest `k` with `10 ^ k ≤ q`, for `0 < q`, found from the digit counts of numerator and
    denominator. -/
def decimalExponent (q : Rat) : Int :=
  let guess :=
    (Binary64.decimalLength q.num.natAbs : Int) - (Binary64.decimalLength q.den : Int)
  if (10 : Rat) ^ guess ≤ q then guess else guess - 1

/-- The neighbours of a magnitude on the grid of `count` digits, the nearer one first. A tie puts
    the one with the even last digit first. -/
def neighbours (size : Rat) (count : Nat) : List Decimal :=
  let scale := decimalExponent size - (count : Int) + 1
  let place := size / (10 : Rat) ^ scale
  let below := place.floor
  let nearest := Number.nearestEven place
  let other := if nearest = below then below + 1 else below
  [⟨nearest.toNat, scale⟩, ⟨other.toNat, scale⟩]

/-- The first decimal, by length and then by nearness, that `reads` accepts. `left` more lengths are
    tried after `count`. -/
def firstReading (reads : Decimal → Bool) (size : Rat) : Nat → Nat → Option Decimal
  | 0, _ => none
  | left + 1, count =>
      match (neighbours size count).find? reads with
      | some found => some found
      | none => firstReading reads size left (count + 1)

/-- The same decimal without zeros at the end of its digits. -/
def trimmed : Nat → Decimal → Decimal
  | 0, d => d
  | fuel + 1, d =>
      if d.digits ≠ 0 ∧ d.digits % 10 = 0 then trimmed fuel ⟨d.digits / 10, d.scale + 1⟩ else d

/-- The shortest decimal that rounds to a finite magnitude. -/
def shortest (mantissa : Nat) (exponent : Int) : Decimal :=
  let size := (mantissa : Rat) * (2 : Rat) ^ exponent
  if mantissa = 0 then ⟨0, 0⟩ else
    let reads := fun d => Binary64.round false (toRat d) = .finite false mantissa exponent
    match firstReading reads size 17 1 with
    | some found => trimmed 17 found
    | none => ⟨mantissa, exponent⟩

end Decimal

end Parley
