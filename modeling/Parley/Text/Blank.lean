set_option autoImplicit false

/-! # Blank characters

Three sets of blanks are in use: the Unicode property White_Space, which surrounds numbers; that set
together with the four information separators, which surrounds a line of text; and the four blanks
of the JSON grammar. -/

namespace Parley.Text

/-- The blanks outside ASCII that have the Unicode property White_Space. -/
def isWideBlank (c : Char) : Bool :=
  let n := c.toNat
  n == 0x85 || n == 0xa0 || n == 0x1680 || decide (0x2000 ≤ n ∧ n ≤ 0x200a) || n == 0x2028
    || n == 0x2029 || n == 0x202f || n == 0x205f || n == 0x3000

/-- The Unicode property White_Space. -/
def isWhiteSpace (c : Char) : Bool :=
  c == ' ' || decide (9 ≤ c.toNat ∧ c.toNat ≤ 13) || isWideBlank c

/-- White_Space and the four information separators. -/
def isLineBlank (c : Char) : Bool :=
  isWhiteSpace c || decide (0x1c ≤ c.toNat ∧ c.toNat ≤ 0x1f)

/-- The blanks between the tokens of a JSON document. -/
def isJsonBlank (c : Char) : Bool :=
  c == ' ' || c == '\t' || c == '\n' || c == '\r'

/-- A text without the blanks at its end. -/
def trimEnd (blank : Char → Bool) (text : List Char) : List Char :=
  (text.reverse.dropWhile blank).reverse

/-- A text without the blanks at its two ends. -/
def trim (blank : Char → Bool) (text : List Char) : List Char :=
  trimEnd blank (text.dropWhile blank)

end Parley.Text
