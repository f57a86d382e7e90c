import Parley.Number.Shortest
set_option autoImplicit false

/-! # Number text

Integers are written in decimal, with or without a comma between groups of three digits. Floats
are written by a `FloatLayout`: the shortest digits that read back, positional while the decimal
exponent lies in a fixed range and with an exponent outside it. A positional text always has a
fraction, be it `.0`; an exponent has a sign and at least two digits. -/

namespace Parley

/-- The decisions about float text that differ between one output format and another. -/
structure FloatLayout where
  /-- The least decimal exponent that is written positionally. -/
  leastPositional : Int
  /-- The greatest decimal exponent that is written positionally. -/
  greatestPositional : Int
  infinity : String
  notANumber : String

namespace FloatLayout

/-- Digits with a point after the first `whole` of them. Missing digits are zeros on either side,
    and there is always a digit on both sides of the point. -/
def positional (digits : List Char) (whole : Int) : List Char :=
  if whole ≤ 0 then '0' :: '.' :: (List.replicate (-whole).toNat '0' ++ digits)
  else
    let front := whole.toNat
    let left := digits.take front ++ List.replicate (front - digits.length) '0'
    let right := digits.drop front
    left ++ '.' :: (if right.isEmpty then ['0'] else right)

/-- Digits with a point after the first one and an exponent. A single digit has no point. -/
def scientific (digits : List Char) (exponent : Int) : List Char :=
  let power := Nat.toDigits 10 exponent.natAbs
  let mark := if exponent < 0 then ['e', '-'] else ['e', '+']
  let point := match digits with
    | first :: second :: rest => first :: '.' :: second :: rest
    | short => short
  point ++ mark ++ List.replicate (2 - power.length) '0' ++ power

/-- The text of a float. -/
def render (layout : FloatLayout) : Binary64 → String
  | .nan _ => layout.notANumber
  | .infinite negative => if negative then "-" ++ layout.infinity else layout.infinity
  | .finite negative mantissa exponent =>
      let decimal := Decimal.shortest mantissa exponent
      let digits := Nat.toDigits 10 decimal.digits
      let power := if mantissa = 0 then 0 else (digits.length : Int) + decimal.scale - 1
      let body :=
        if layout.leastPositional ≤ power ∧ power ≤ layout.greatestPositional
        then positional digits (power + 1)
        else scientific digits power
      String.ofList (if negative then '-' :: body else body)

/-- Floats in running text. -/
def display : FloatLayout := ⟨-4, 15, "inf", "nan"⟩

/-- Floats in JSON documents. -/
def json : FloatLayout := ⟨-4, 15, "Infinity", "NaN"⟩

end FloatLayout

/-! ## Integers -/

/-- Insert a comma before every third digit, counted from the end of a reversed digit list. -/
def groupReversed : List Char → List Char
  | a :: b :: c :: d :: rest => a :: b :: c :: ',' :: groupReversed (d :: rest)
  | short => short

/-- Integers in decimal with a comma between groups of three digits. -/
def grouped (n : Int) : String :=
  let digits := (groupReversed (Nat.toDigits 10 n.natAbs).reverse).reverse
  String.ofList (if n < 0 then '-' :: digits else digits)

/-- Integers in decimal. -/
def decimalText (n : Int) : String :=
  let digits := Nat.toDigits 10 n.natAbs
  String.ofList (if n < 0 then '-' :: digits else digits)

end Parley
