import Parley.Number.Binary64
import Parley.Text.Blank
import Parley.Text.Digit
set_option autoImplicit false

/-! # Reading numbers

Three grammars for numbers in text. An integer is an optional sign and digits of any script. A
lenient integer has ASCII digits and may end in a point and zeros. A float is written with digits, a
point and an exponent, or as one of the words for infinity and for what is not a number. In all
three, blanks may surround the number, and one underscore may stand between two digits. -/

namespace Parley.Number

open Text

/-! ## Pieces -/

/-- A sign, true for a minus, and what follows it. -/
def readSign : List Char → Bool × List Char
  | '-' :: rest => (true, rest)
  | '+' :: rest => (false, rest)
  | text => (false, text)

/-- The longest run of ASCII digits at the beginning, and what follows it. -/
def readDigits (text : List Char) : List Char × List Char :=
  (text.takeWhile isAsciiDigit, text.dropWhile isAsciiDigit)

/-- An integer with a sign. -/
def signed (negative : Bool) (size : Nat) : Int :=
  if negative then -(size : Int) else (size : Int)

/-- An exponent: its letter, an optional sign and at least one digit. A text that does not begin
    with one is left as it is. -/
def readExponent (text : List Char) : Option Int × List Char :=
  match text with
  | letter :: rest =>
      if letter = 'e' ∨ letter = 'E' then
        let (negative, tail) := readSign rest
        let (digits, after) := readDigits tail
        if digits.isEmpty then (none, text)
        else (some (signed negative (digitsValue digits)), after)
      else (none, text)
  | [] => (none, [])

/-- The digits of a text that is made of digits, with at most one underscore between each two. -/
def groupedDigits? (digit : Char → Bool) : List Char → Option (List Char)
  | [] => none
  | [c] => if digit c then some [c] else none
  | c :: '_' :: rest => if digit c then (groupedDigits? digit rest).map (c :: ·) else none
  | c :: rest => if digit c then (groupedDigits? digit rest).map (c :: ·) else none

/-! ## Integers -/

/-- An integer. -/
def integerOfText? (text : String) : Option Int :=
  let (negative, rest) := readSign (trim isWhiteSpace text.toList)
  (groupedDigits? isDecimalDigit rest).map fun digits => signed negative (digitsValue digits)

/-- A text without the point and the zeros at its end. -/
def withoutZeroFraction (text : List Char) : List Char :=
  match text.dropWhile fun c => c != '.' with
  | '.' :: zeros =>
      if zeros.all fun c => c == '0' then text.takeWhile fun c => c != '.' else text
  | _ => text

/-- A lenient integer. -/
def lenientIntegerOfText? (text : String) : Option Int :=
  let (negative, rest) := readSign (withoutZeroFraction (trim isWhiteSpace text.toList))
  (groupedDigits? isAsciiDigit rest).map fun digits => signed negative (digitsValue digits)

/-! ## Floats -/

/-- The words for values that have no digits, in lower case. -/
def floatWord? (negative : Bool) (word : String) : Option Binary64 :=
  if word = "inf" ∨ word = "infinity" then some (.infinite negative)
  else if word = "nan" then some (.nan negative)
  else none

/-- The fraction of a float: a point and any number of digits. -/
def readFraction : List Char → List Char × List Char
  | '.' :: rest => readDigits rest
  | text => ([], text)

/-- A float without blanks and underscores. -/
def plainFloat? (text : List Char) : Option Binary64 :=
  let (negative, rest) := readSign text
  match floatWord? negative (String.ofList (rest.map Char.toLower)) with
  | some value => some value
  | none =>
      let (whole, afterWhole) := readDigits rest
      let (fraction, afterFraction) := readFraction afterWhole
      let (power?, left) := readExponent afterFraction
      if (whole.isEmpty && fraction.isEmpty) || !left.isEmpty then none
      else
        let scale := power?.getD 0 - (fraction.length : Int)
        some (Binary64.ofDecimal negative (digitsValue (whole ++ fraction)) scale)

/-- No two underscores stand side by side. -/
def singleUnderscores : List Char → Bool
  | '_' :: '_' :: _ => false
  | _ :: rest => singleUnderscores rest
  | [] => true

/-- A float. -/
def floatOfText? (text : String) : Option Binary64 :=
  let trimmed := trim isWhiteSpace text.toList
  if trimmed.head? = some '_' ∨ trimmed.getLast? = some '_' ∨ ¬ singleUnderscores trimmed then none
  else plainFloat? (trimmed.filter fun c => c != '_')

end Parley.Number
