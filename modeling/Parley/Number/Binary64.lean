import Parley.Number.Rounding
set_option autoImplicit false

/-! # Double-precision binary floating point

A finite value is a sign, a mantissa `m < 2 ^ 53` and an exponent `-1074 ≤ e ≤ 971`, and stands for
`± m * 2 ^ e`; either `2 ^ 52 ≤ m` or `e = -1074`, so that each value has one form for each sign.

Arithmetic is exact rational arithmetic followed by one rounding (`Binary64.round`): a quotient of
integers of any size, a sum, a product and a decimal text are all rounded once. Zeros keep their
sign, and an operation without a meaningful result gives the not-a-number with the sign bit set. -/

namespace Parley

open Number

/-- A float: not a number, an infinity, or a finite value. -/
inductive Binary64
  | nan (negative : Bool)
  | infinite (negative : Bool)
  | finite (negative : Bool) (mantissa : Nat) (exponent : Int)
deriving DecidableEq

namespace Binary64

/-- Zero with a plus sign. -/
def zero : Binary64 := .finite false 0 (-1074)

/-- The rational that a finite value stands for. -/
def toRat? : Binary64 → Option Rat
  | .nan _ => none
  | .infinite _ => none
  | .finite negative mantissa exponent =>
      let size := (mantissa : Rat) * (2 : Rat) ^ exponent
      some (if negative then -size else size)

/-! ## Rounding -/

/-- The exponent of the grid on which a magnitude is rounded: 53 significant bits, as long as the
    least exponent of the format allows them. -/
def gridExponent (size : Rat) : Int :=
  if size = 0 then -1074 else
    let wanted := binaryExponent size - 52
    if wanted < -1074 then -1074 else wanted

/-- The value nearest to a magnitude, a tie to the even mantissa, with the sign given; a magnitude
    that rounds to `2 ^ 1024` or more becomes infinite. -/
def round (negative : Bool) (size : Rat) : Binary64 :=
  let exponent := gridExponent size
  let mantissa := (nearestEven (size / (2 : Rat) ^ exponent)).toNat
  if mantissa = 9007199254740992 then
    if 970 < exponent then .infinite negative
    else .finite negative 4503599627370496 (exponent + 1)
  else if 971 < exponent then .infinite negative
  else .finite negative mantissa exponent

/-- The value nearest to a rational; zero is positive. -/
def ofRat (q : Rat) : Binary64 :=
  round (decide (q < 0)) (magnitude q)

/-- The value nearest to an integer, unless it is too large for the format. -/
def ofInt? (n : Int) : Option Binary64 :=
  match ofRat n with
  | .infinite _ => none
  | value => some value

/-- The value nearest to `a / b`, unless it is too large for the format. The exact quotient is
    rounded once, and a quotient that rounds to zero keeps its sign. -/
def quotient? (a b : Int) : Option Binary64 :=
  match round (decide (a < 0) != decide (b < 0)) (magnitude ((a : Rat) / (b : Rat))) with
  | .infinite _ => none
  | value => some value

/-- The number of decimal digits of a natural number. -/
def decimalLength (n : Nat) : Nat :=
  (Nat.toDigits 10 n).length

/-- The value nearest to `± digits * 10 ^ scale`. A scale that is far outside the range of the
    format decides the result without the power being computed. -/
def ofDecimal (negative : Bool) (digits : Nat) (scale : Int) : Binary64 :=
  let leading := (decimalLength digits : Int) + scale
  if digits = 0 then .finite negative 0 (-1074)
  else if 320 < leading then .infinite negative
  else if leading < -340 then .finite negative 0 (-1074)
  else round negative ((digits : Rat) * (10 : Rat) ^ scale)

/-! ## Arithmetic -/

/-- Addition; a sum of opposite values is the positive zero. -/
def add : Binary64 → Binary64 → Binary64
  | .nan s, _ => .nan s
  | _, .nan t => .nan t
  | .infinite s, .infinite t => if s = t then .infinite s else .nan true
  | .infinite s, .finite .. => .infinite s
  | .finite .., .infinite t => .infinite t
  | .finite s m d, .finite t n e =>
      let left := (m : Rat) * (2 : Rat) ^ d
      let right := (n : Rat) * (2 : Rat) ^ e
      let sum := (if s then -left else left) + (if t then -right else right)
      if sum = 0 then .finite (s && t) 0 (-1074) else ofRat sum

/-- Multiplication; the sign of the product is kept on zeros and infinities. -/
def mul : Binary64 → Binary64 → Binary64
  | .nan s, _ => .nan s
  | _, .nan t => .nan t
  | .infinite s, .infinite t => .infinite (s != t)
  | .infinite s, .finite t n _ => if n = 0 then .nan true else .infinite (s != t)
  | .finite s m _, .infinite t => if m = 0 then .nan true else .infinite (s != t)
  | .finite s m d, .finite t n e =>
      round (s != t) ((m : Rat) * (2 : Rat) ^ d * ((n : Rat) * (2 : Rat) ^ e))

/-- The least integer that is not smaller, of a finite value. -/
def ceil? (x : Binary64) : Option Int :=
  x.toRat?.map Rat.ceil

/-- The nearest integer, a half to the even one, of a finite value. -/
def nearest? (x : Binary64) : Option Int :=
  x.toRat?.map nearestEven

/-- The integer part, toward zero, of a finite value. -/
def truncate? (x : Binary64) : Option Int :=
  x.toRat?.map fun q => if q < 0 then q.ceil else q.floor

/-- The integer that a value is equal to, if it is one. -/
def integer? (x : Binary64) : Option Int :=
  match x.toRat? with
  | some q => if q.den = 1 then some q.num else none
  | none => none

/-- A value counts as zero whatever its sign. -/
def isZero : Binary64 → Bool
  | .finite _ mantissa _ => mantissa == 0
  | _ => false

/-! ## Encoding -/

/-- The 64-bit pattern: sign, eleven bits of biased exponent, 52 bits of fraction. -/
def toBits : Binary64 → Nat
  | .nan negative => signBit negative + 0x7ff8000000000000
  | .infinite negative => signBit negative + 0x7ff0000000000000
  | .finite negative mantissa exponent =>
      if mantissa < 4503599627370496 then signBit negative + mantissa
      else signBit negative + (exponent + 1075).toNat * 4503599627370496
        + (mantissa - 4503599627370496)
where
  signBit (negative : Bool) : Nat := if negative then 0x8000000000000000 else 0

/-- The bit pattern as sixteen lower-case hexadecimal digits. -/
def toHex (x : Binary64) : String :=
  let digits := Nat.toDigits 16 x.toBits
  String.ofList (List.replicate (16 - digits.length) '0' ++ digits)

end Binary64

end Parley
