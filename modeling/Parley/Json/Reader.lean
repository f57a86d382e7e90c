import Parley.Json
import Parley.Number.Reader
set_option autoImplicit false

/-! # Reading JSON documents

A document is one value between blanks. Beside the standard grammar the words `NaN`, `Infinity` and
`-Infinity` are numbers. A number with a fraction or an exponent is a float, every other one an
integer. A field name that occurs again keeps its first place and takes the last value.

Three limits of the program's own reader are not modelled. It refuses values that are nested more
deeply than its stack allows, and integers of more than 4300 digits, both of which are read here. It
keeps a surrogate escape that is not half of a pair as a lone surrogate, which stands for the
replacement character here, since a text holds no surrogates.

Every reader takes the text that is left and returns the rest of it. The fuel bounds the number of
nested calls; each value or item takes at least one character, so twice the length of the text is
enough. -/

namespace Parley.Json

open Text

/-! ## Numbers -/

/-- A fraction: a point and at least one digit. A text that does not begin with one is left as it
    is. -/
def readFraction : List Char → List Char × List Char
  | '.' :: rest =>
      let (digits, after) := Number.readDigits rest
      if digits.isEmpty then ([], '.' :: rest) else (digits, after)
  | text => ([], text)

/-- The digits before the point: a zero alone or digits that start with another one. -/
def readWhole : List Char → Option (List Char × List Char)
  | '0' :: rest => some (['0'], rest)
  | text =>
      let (digits, after) := Number.readDigits text
      if digits.isEmpty then none else some (digits, after)

/-- A number, after its sign. -/
def readNumber (negative : Bool) (text : List Char) : Option (Number × List Char) := do
  let (whole, afterWhole) ← readWhole text
  let (fraction, afterFraction) := readFraction afterWhole
  let (power?, rest) := Number.readExponent afterFraction
  if fraction.isEmpty && power?.isNone then
    return (.int (Number.signed negative (digitsValue whole)), rest)
  else
    let scale := power?.getD 0 - (fraction.length : Int)
    return (.float (Binary64.ofDecimal negative (digitsValue (whole ++ fraction)) scale), rest)

/-! ## Strings -/

/-- The value of a hexadecimal digit. -/
def hexValue? (c : Char) : Option Nat :=
  if '0' ≤ c ∧ c ≤ '9' then some (c.toNat - 48)
  else if 'a' ≤ c ∧ c ≤ 'f' then some (c.toNat - 87)
  else if 'A' ≤ c ∧ c ≤ 'F' then some (c.toNat - 55)
  else none

/-- Four hexadecimal digits. -/
def readUnit : List Char → Option (Nat × List Char)
  | a :: b :: c :: d :: rest => do
      let n := ((← hexValue? a) * 16 + (← hexValue? b)) * 16 + (← hexValue? c)
      return (n * 16 + (← hexValue? d), rest)
  | _ => none

/-- The character that a single-letter escape stands for. -/
def escaped? : Char → Option Char
  | '"' => some '"'
  | '\\' => some '\\'
  | '/' => some '/'
  | 'b' => some '\x08'
  | 'f' => some '\x0c'
  | 'n' => some '\n'
  | 'r' => some '\r'
  | 't' => some '\t'
  | _ => none

/-- The character of a `\u` escape whose first unit has been read. A high unit joins the low unit of
    an escape that follows it directly. -/
def joinUnits (unit : Nat) (rest : List Char) : Char × List Char :=
  if 0xd800 ≤ unit ∧ unit < 0xdc00 then
    match rest with
    | '\\' :: 'u' :: tail =>
        match readUnit tail with
        | some (low, after) =>
            if 0xdc00 ≤ low ∧ low < 0xe000 then
              (Char.ofNat (0x10000 + (unit - 0xd800) * 0x400 + (low - 0xdc00)), after)
            else ('\ufffd', rest)
        | none => ('\ufffd', rest)
    | _ => ('\ufffd', rest)
  else if 0xdc00 ≤ unit ∧ unit < 0xe000 then ('\ufffd', rest)
  else (Char.ofNat unit, rest)

/-- The characters up to the closing quote, behind those read before, which come in reverse. -/
def readString : Nat → List Char → List Char → Option (String × List Char)
  | 0, _, _ => none
  | _ + 1, _, [] => none
  | fuel + 1, read, c :: rest =>
      if c = '"' then some (String.ofList read.reverse, rest)
      else if c = '\\' then
        match rest with
        | 'u' :: tail => do
            let (unit, after) ← readUnit tail
            let (char, after) := joinUnits unit after
            readString fuel (char :: read) after
        | letter :: tail => do readString fuel ((← escaped? letter) :: read) tail
        | [] => none
      else if c.toNat < 0x20 then none
      else readString fuel (c :: read) rest

/-! ## Values -/

/-- Without the blanks at the beginning. -/
def skipBlanks (text : List Char) : List Char :=
  text.dropWhile isJsonBlank

/-- The words that are values of their own. -/
def words : List (String × Json) :=
  [("null", .null), ("true", .bool true), ("false", .bool false),
    ("NaN", .number (.float (.nan false))), ("Infinity", .number (.float (.infinite false))),
    ("-Infinity", .number (.float (.infinite true)))]

/-- A word at the beginning of a text. -/
def readWord (text : List Char) : List (String × Json) → Option (Json × List Char)
  | [] => none
  | (word, value) :: more =>
      let letters := word.toList
      if text.take letters.length = letters then some (value, text.drop letters.length)
      else readWord text more

mutual

/-- A value. -/
def readValue : Nat → List Char → Option (Json × List Char)
  | 0, _ => none
  | fuel + 1, text =>
      match text with
      | '"' :: rest => do
          let (content, after) ← readString (rest.length + 1) [] rest
          return (.string content, after)
      | '[' :: rest =>
          match skipBlanks rest with
          | ']' :: after => some (.array [], after)
          | start => do
              let (items, after) ← readItems fuel start
              return (.array items, after)
      | '{' :: rest =>
          match skipBlanks rest with
          | '}' :: after => some (.object [], after)
          | start => do
              let (fields, after) ← readFields fuel start
              return (.object (Ordered.ofList fields), after)
      | _ =>
          match readWord text words with
          | some found => some found
          | none => do
              let (value, after) ← match text with
                | '-' :: digits => readNumber true digits
                | digits => readNumber false digits
              return (.number value, after)

/-- The items of an array up to its closing bracket. -/
def readItems : Nat → List Char → Option (List Json × List Char)
  | 0, _ => none
  | fuel + 1, text => do
      let (item, rest) ← readValue fuel text
      match skipBlanks rest with
      | ']' :: after => return ([item], after)
      | ',' :: after =>
          let (items, after) ← readItems fuel (skipBlanks after)
          return (item :: items, after)
      | _ => none

/-- The fields of an object up to its closing brace. -/
def readFields : Nat → List Char → Option (List (String × Json) × List Char)
  | 0, _ => none
  | fuel + 1, text =>
      match text with
      | '"' :: quoted => do
          let (name, rest) ← readString (quoted.length + 1) [] quoted
          match skipBlanks rest with
          | ':' :: after =>
              let (value, rest) ← readValue fuel (skipBlanks after)
              match skipBlanks rest with
              | '}' :: after => return ([(name, value)], after)
              | ',' :: after =>
                  let (fields, after) ← readFields fuel (skipBlanks after)
                  return ((name, value) :: fields, after)
              | _ => none
          | _ => none
      | _ => none

end

/-- The value of a document, if the text is one. Depth of nesting and length of integers are not
    limited, and a lone surrogate reads as the replacement character. -/
def read? (document : String) : Option Json := do
  let text := document.toList
  let (value, rest) ← readValue (2 * text.length + 2) (skipBlanks text)
  if (skipBlanks rest).isEmpty then return value else none

end Parley.Json
