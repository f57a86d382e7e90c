set_option autoImplicit false

/-! # Decimal digits

The decimal digits of every script stand in runs of ten, from zero to nine, so the zeros of the runs
give the whole class (Unicode general category Nd) and the value of each digit in it. -/

namespace Parley.Text

/-- The code point of the zero of every run of decimal digits. -/
def digitZeros : List Nat := [
    0x30, 0x660, 0x6f0, 0x7c0, 0x966, 0x9e6, 0xa66, 0xae6, 0xb66, 0xbe6, 0xc66, 0xce6, 0xd66,
    0xde6, 0xe50, 0xed0, 0xf20, 0x1040, 0x1090, 0x17e0, 0x1810, 0x1946, 0x19d0, 0x1a80, 0x1a90,
    0x1b50, 0x1bb0, 0x1c40, 0x1c50, 0xa620, 0xa8d0, 0xa900, 0xa9d0, 0xa9f0, 0xaa50, 0xabf0,
    0xff10, 0x104a0, 0x10d30, 0x11066, 0x110f0, 0x11136, 0x111d0, 0x112f0, 0x11450, 0x114d0,
    0x11650, 0x116c0, 0x11730, 0x118e0, 0x11950, 0x11c50, 0x11d50, 0x11da0, 0x16a60, 0x16ac0,
    0x16b50, 0x1d7ce, 0x1d7d8, 0x1d7e2, 0x1d7ec, 0x1d7f6, 0x1e140, 0x1e2f0, 0x1e950, 0x1fbf0]

/-- The value of a decimal digit of any script. -/
def digitValue? (c : Char) : Option Nat :=
  (digitZeros.find? fun start => decide (start ≤ c.toNat ∧ c.toNat < start + 10)).map (c.toNat - ·)

/-- A decimal digit of any script. -/
def isDecimalDigit (c : Char) : Bool :=
  (digitValue? c).isSome

theorem isDecimalDigit_of_isDigit {c : Char} (h : c.isDigit = true) :
    isDecimalDigit c = true := by
  have hrange : 0x30 ≤ c.toNat ∧ c.toNat < 0x30 + 10 := by
    simp only [Char.isDigit, Bool.and_eq_true, decide_eq_true_eq] at h
    obtain ⟨hlow, hhigh⟩ := h
    have hlow' : (48 : Nat) ≤ c.toNat := hlow
    have hhigh' : c.toNat ≤ 57 := hhigh
    omega
  simp only [isDecimalDigit, digitValue?, digitZeros, List.find?_cons, hrange, and_self,
    decide_true, Option.map_some, Option.isSome_some]

/-- Digits in front of a character that is none are told apart from it, from the last one on. -/
theorem span_digits {digits : List Char} (h : ∀ c ∈ digits, isDecimalDigit c = true) {c : Char}
    (hc : isDecimalDigit c = false) (rest : List Char) :
    (digits.reverse ++ c :: rest).takeWhile isDecimalDigit = digits.reverse ∧
      (digits.reverse ++ c :: rest).dropWhile isDecimalDigit = c :: rest := by
  have hreverse : ∀ c ∈ digits.reverse, isDecimalDigit c = true := by
    intro c hmem
    exact h c (List.mem_reverse.1 hmem)
  rw [List.takeWhile_append_of_pos hreverse, List.dropWhile_append_of_pos hreverse,
    List.takeWhile_cons, List.dropWhile_cons, hc]
  simp

/-- A digit from `'0'` to `'9'`. -/
def isAsciiDigit (c : Char) : Bool :=
  decide ('0' ≤ c ∧ c ≤ '9')

/-- The number that a list of decimal digits spells, the most significant one first. Characters that
    are no digits count as zeros. -/
def digitsValue (digits : List Char) : Nat :=
  digits.foldl (fun total c => total * 10 + (digitValue? c).getD 0) 0

end Parley.Text
