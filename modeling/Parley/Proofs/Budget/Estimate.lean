import Parley.Proofs.Number.Overflow
set_option autoImplicit false

/-! # Token estimates of any size

A number of characters in tokens is a quarter that was rounded to a float and then up to an integer
(`tokens_eq`). Beyond `2 ^ 53` characters the estimate need not be the exact ceiling, but rounding
keeps the order and so does the ceiling: more characters are never fewer tokens, none are no tokens,
and one character or more is at least one token (`saved_sound`). -/

namespace Parley

open Number Binary64

namespace Budget

/-! ## Tokens -/

/-- **What tokens are.** The tokens of some characters are the ceiling of their rounded quarter, and
    a fault if the quarter is too large for a float. -/
theorem tokens_eq (chars : Int) :
    tokens chars = if |(chars : Rat) / 4| < overflow then .ok ⌈nearest ((chars : Rat) / 4)⌉
      else .error .quotientTooLarge := by
  have hfour : (chars : Rat) / ((charsPerToken : Int) : Rat) = chars / 4 := by
    norm_num [charsPerToken]
  cases hquotient : quotient? chars charsPerToken with
  | none =>
      have hlarge := quotient?_eq_none_iff.1 hquotient
      rw [hfour] at hlarge
      rw [if_neg (not_lt.2 hlarge)]
      simp only [tokens, quotient, hquotient, bind, Except.bind]
  | some q =>
      have hvalue := toRat?_of_quotient? hquotient
      have hsmall : |(chars : Rat) / 4| < overflow := by
        rw [← hfour]
        refine not_le.1 fun hlarge => ?_
        rw [quotient?_eq_none_iff.2 hlarge] at hquotient
        cases hquotient
      rw [hfour] at hvalue
      rw [if_pos hsmall]
      simp only [tokens, quotient, hquotient, ceil?, hvalue, bind, Except.bind, Option.map_some,
        ceil_eq]
      rfl

theorem tokens_eq_ok_iff {chars n : Int} :
    tokens chars = .ok n ↔ |(chars : Rat) / 4| < overflow ∧ n = ⌈nearest ((chars : Rat) / 4)⌉ := by
  rw [tokens_eq]
  split_ifs with hsmall
  · simp [hsmall, eq_comm]
  · simp [hsmall]

/-- More characters are no fewer tokens. -/
theorem tokens_le_tokens {chars chars' n n' : Int} (h : chars ≤ chars')
    (hn : tokens chars = .ok n) (hn' : tokens chars' = .ok n') : n ≤ n' := by
  rw [(tokens_eq_ok_iff.1 hn).2, (tokens_eq_ok_iff.1 hn').2]
  have hcast : (chars : Rat) ≤ chars' := by exact_mod_cast h
  exact Int.ceil_le_ceil (nearest_le_nearest (div_le_div_of_nonneg_right hcast (by norm_num)))

theorem tokens_zero : tokens 0 = .ok 0 := by
  rw [tokens_eq_ceil (by norm_num)]
  norm_num

theorem tokens_one : tokens 1 = .ok 1 := by
  rw [tokens_eq_ceil (by norm_num)]
  norm_num

/-! ## Savings -/

/-- **Savings are sound estimates.** For texts whose sizes differ by at most `2 ^ 53` the tokens saved
    are the exact ceiling of a quarter of the difference. There are tokens for any sizes, as long as a
    quarter of the difference is not so large that it would be rounded to infinity. Where there are,
    they grow with the size before and shrink with the size after; where the size stays the same none
    are saved, and where a text gets shorter one is saved at least. -/
theorem saved_sound :
    (∀ before after : Int, (before - after).natAbs ≤ 2 ^ 53 →
      saved before after = .ok ⌈((before - after : Int) : Rat) / 4⌉) ∧
    (∀ before after : Int, (∃ n, saved before after = .ok n)
      ↔ |((before - after : Int) : Rat) / 4| < overflow) ∧
    (∀ before before' after n n' : Int, before ≤ before' → saved before after = .ok n →
      saved before' after = .ok n' → n ≤ n') ∧
    (∀ before after after' n n' : Int, after ≤ after' → saved before after = .ok n →
      saved before after' = .ok n' → n' ≤ n) ∧
    (∀ size : Int, saved size size = .ok 0) ∧
    ∀ before after n : Int, after < before → saved before after = .ok n → 1 ≤ n := by
  refine ⟨fun before after h => tokens_eq_ceil h, ?_, ?_, ?_, ?_, ?_⟩
  · intro before after
    simp only [saved, tokens_eq_ok_iff, exists_and_left, exists_eq, and_true]
  · intro before before' after n n' hle hn hn'
    exact tokens_le_tokens (by omega) hn hn'
  · intro before after after' n n' hle hn hn'
    exact tokens_le_tokens (by omega) hn' hn
  · intro size
    rw [saved, sub_self, tokens_zero]
  · intro before after n hlt hn
    exact tokens_le_tokens (by omega) tokens_one hn

/-- Beyond `2 ^ 53` tokens every second number is a float. A tie may go down, to fewer tokens than
    the exact ceiling, or up, and the order is kept. -/
theorem saved_sound_ties :
    saved (2 ^ 53 + 1) 1 = .ok ⌈(((2 ^ 53 + 1) - 1 : Int) : Rat) / 4⌉ ∧
    saved (2 ^ 55 + 4) 0 = .ok (2 ^ 53) ∧ saved (2 ^ 55 + 12) 0 = .ok (2 ^ 53 + 4) ∧
    saved (2 ^ 55 + 12) 4 = .ok (2 ^ 53 + 2) ∧ (2 ^ 53 : Int) ≤ 2 ^ 53 + 4 ∧
    (2 ^ 53 + 2 : Int) ≤ 2 ^ 53 + 4 ∧ (1 : Int) ≤ 2 ^ 53 ∧ saved (2 ^ 1030) (2 ^ 1030) = .ok 0 := by
  obtain ⟨hexact, -, hbefore, hafter, hsame, hsome⟩ := saved_sound
  have hdown : saved (2 ^ 55 + 4) 0 = .ok (2 ^ 53) := by decide +kernel
  have hup : saved (2 ^ 55 + 12) 0 = .ok (2 ^ 53 + 4) := by decide +kernel
  have hless : saved (2 ^ 55 + 12) 4 = .ok (2 ^ 53 + 2) := by decide +kernel
  exact ⟨hexact (2 ^ 53 + 1) 1 (by decide), hdown, hup, hless,
    hbefore (2 ^ 55 + 4) (2 ^ 55 + 12) 0 _ _ (by decide) hdown hup,
    hafter (2 ^ 55 + 12) 0 4 _ _ (by decide) hup hless,
    hsome (2 ^ 55 + 4) 0 _ (by decide) hdown, hsame (2 ^ 1030)⟩

end Budget

end Parley
