import Parley.Number.Text
set_option autoImplicit false

/-! # Numbers that are integers or floats

A number keeps the kind it was written with: an unbounded integer or a binary64 float. Comparison is
exact across the two kinds, without a conversion that could round. A sum of integers is an integer;
as soon as one operand is a float, the other one is converted and the operation is carried out in
binary64. -/

namespace Parley

/-- An unbounded integer or a float. -/
inductive Number
  | int (value : Int)
  | float (value : Binary64)
deriving DecidableEq

namespace Number

/-! ## Exact order -/

/-- A place on the line of rationals extended by the two infinities. -/
inductive Place
  | below
  | at (value : Rat)
  | above

/-- Order on the extended line. -/
def Place.le : Place → Place → Bool
  | .below, _ => true
  | .at _, .below => false
  | .at p, .at q => decide (p ≤ q)
  | .at _, .above => true
  | .above, .above => true
  | .above, _ => false

/-- Where a number lies; what is not a number lies nowhere. -/
def place? : Number → Option Place
  | .int n => some (.at (n : Rat))
  | .float (.nan _) => none
  | .float (.infinite negative) => some (if negative then .below else .above)
  | .float (.finite negative mantissa exponent) =>
      let size := (mantissa : Rat) * (2 : Rat) ^ exponent
      some (.at (if negative then -size else size))

/-- The exact comparison `a ≤ b`, false when either side is not a number. -/
def le (a b : Number) : Bool :=
  match a.place?, b.place? with
  | some p, some q => p.le q
  | _, _ => false

/-- The exact comparison `a < b`. -/
def lt (a b : Number) : Bool :=
  a.le b && !b.le a

/-- Zero of either kind and sign. -/
def isZero : Number → Bool
  | .int n => n == 0
  | .float x => x.isZero

/-! ## Arithmetic -/

/-- The number as a float, unless it is an integer too large for the format. -/
def toFloat? : Number → Option Binary64
  | .int n => Binary64.ofInt? n
  | .float x => some x

/-- The number as a float; an integer too large for the format is infinite. -/
def toFloat : Number → Binary64
  | .int n => Binary64.ofRat (n : Rat)
  | .float x => x

/-- Addition. -/
def add : Number → Number → Number
  | .int m, .int n => .int (m + n)
  | a, b => .float (a.toFloat.add b.toFloat)

/-! ## Text -/

/-- The text of a number in the layout given for floats. -/
def text (layout : FloatLayout) : Number → String
  | .int n => decimalText n
  | .float x => layout.render x

end Number

end Parley
