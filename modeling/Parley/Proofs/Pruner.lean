import Parley.Pruner
import Parley.Proofs.Pass
import Mathlib.Data.List.TakeWhile
set_option autoImplicit false

/-! # Pruning the same result again

An error that was cut ends in a marker, which is recognised whatever number it states
(`endsInMarker_iff`), and a placeholder is short. So a result that was pruned once is left alone
from then on, provided that its placeholder does not exceed the threshold itself
(`replacement?_again`). -/

namespace Parley

/-! ## Numbers in decimal -/

theorem toList_decimalText (n : Nat) : (decimalText n).toList = Nat.toDigits 10 n := by
  unfold decimalText
  simp only [Int.natAbs_natCast, String.toList_ofList]
  rw [if_neg (by omega)]

theorem Text.isDecimalDigit_of_mem_toDigits {n : Nat} {c : Char} (h : c ∈ Nat.toDigits 10 n) :
    isDecimalDigit c = true :=
  isDecimalDigit_of_isDigit (Nat.isDigit_of_mem_toDigits (by decide) (by decide) h)

namespace Pruner

/-! ## Markers -/

theorem toList_marker (n : Nat) :
    (marker n).toList = markerStart.toList ++ Nat.toDigits 10 n ++ markerEnd.toList := by
  simp only [marker, String.toList_append, toList_decimalText]

/-- Digits that stand behind the beginning of a marker are told apart from it. -/
theorem span_digits {before digits : List Char}
    (hdigits : ∀ c ∈ digits, Text.isDecimalDigit c = true) :
    (before ++ markerStart.toList ++ digits).reverse.takeWhile Text.isDecimalDigit
        = digits.reverse ∧
      (before ++ markerStart.toList ++ digits).reverse.dropWhile Text.isDecimalDigit
        = (before ++ markerStart.toList).reverse := by
  have hstart : (before ++ markerStart.toList).reverse
      = ' ' :: (before ++ "\n\n[Error output truncated:".toList).reverse := by
    simp [markerStart]
  have hblank : Text.isDecimalDigit ' ' = false := by decide
  rw [List.reverse_append, hstart]
  exact Text.span_digits hdigits hblank _

/-- A text ends in a marker exactly if it is some text followed by the beginning of a marker,
    decimal digits, and the end of a marker. -/
theorem endsInMarker_iff {text : String} :
    endsInMarker text = true ↔
      ∃ before digits, digits ≠ [] ∧ (∀ c ∈ digits, Text.isDecimalDigit c = true) ∧
        text.toList = before ++ markerStart.toList ++ digits ++ markerEnd.toList := by
  unfold endsInMarker
  constructor
  · intro h
    split at h
    · exact absurd h (by simp)
    · next front hfront =>
        rw [Text.beforeSuffix?_eq_some_iff] at hfront
        simp only [Bool.and_eq_true, Bool.not_eq_true', List.isEmpty_eq_false_iff,
          Option.isSome_iff_exists] at h
        obtain ⟨hne, before, hbefore⟩ := h
        rw [Text.beforeSuffix?_eq_some_iff] at hbefore
        refine ⟨before, (front.reverse.takeWhile Text.isDecimalDigit).reverse, by simpa using hne,
          fun c hc => ?_, ?_⟩
        · exact List.mem_takeWhile_imp (List.mem_reverse.1 hc)
        · rw [hfront, ← hbefore, ← List.reverse_append, List.takeWhile_append_dropWhile,
            List.reverse_reverse]
  · rintro ⟨before, digits, hne, hdigits, htext⟩
    rw [Text.beforeSuffix?_eq_some_iff.2 htext]
    obtain ⟨htake, hdrop⟩ := @span_digits before digits hdigits
    simp only [htake, hdrop, List.reverse_reverse, Bool.and_eq_true, Bool.not_eq_true',
      List.isEmpty_eq_false_iff, Option.isSome_iff_exists]
    exact ⟨by simpa using hne, before, Text.beforeSuffix?_eq_some_iff.2 rfl⟩

theorem endsInMarker_append_marker (front : String) (n : Nat) :
    endsInMarker (front ++ marker n) = true := by
  refine endsInMarker_iff.2 ⟨front.toList, Nat.toDigits 10 n, Nat.toDigits_ne_nil,
    fun c hc => Text.isDecimalDigit_of_mem_toDigits hc, ?_⟩
  rw [String.toList_append, toList_marker, List.append_assoc, List.append_assoc, List.append_assoc]

/-! ## The same result again -/

/-- A cut error keeps all the characters that an error may have. -/
theorem lt_length_cut (keep : Int) {old : String} (h : keep < old.length) (n : Nat) :
    keep < (leading keep old ++ marker n).length := by
  have hmarker : 0 < (marker n).length := by
    rw [← String.length_toList, toList_marker]
    simp [markerStart]
  simp only [String.length_append, leading, String.length_ofList, List.length_take,
    String.length_toList]
  split_ifs <;> omega

/-- What a pruner puts in place of a text: an error that was cut, or a placeholder for a text that
    is not an error to be cut. -/
theorem replacement?_cases {p : Pruner} {call : ToolCall} {old new : String}
    (hold : call.result = .string old) (hnew : p.replacement? call = .ok (some new)) :
    (call.isError = true ∧ p.errorKeepChars < old.length ∧
        new = leading p.errorKeepChars old ++ marker old.length) ∨
      (¬ (call.isError = true ∧ p.errorKeepChars < old.length) ∧
        new = placeholder old.length call.name.display ∧ new.length < old.length) := by
  simp only [replacement?, hold, reduceCtorEq, if_false, Json.size?, Json.text?,
    Bool.and_eq_true, decide_eq_true_eq] at hnew
  split_ifs at hnew with herror hlong
  · simp only [Except.ok.injEq, cutError] at hnew
    split_ifs at hnew
    exact Or.inl ⟨herror.1, herror.2, (ifShorter_eq_some hnew).1⟩
  · simp only [Except.ok.injEq] at hnew
    exact Or.inr ⟨herror, ifShorter_eq_some hnew⟩
  · exact absurd hnew (by simp)

/-- A result that was pruned is not pruned again, unless its placeholder is too long itself. -/
theorem replacement?_again {p : Pruner} {call : ToolCall} {old new : String}
    (hold : call.result = .string old) (hnew : p.replacement? call = .ok (some new))
    (hshort : ((placeholder old.length call.name.display).length : Int) ≤ p.truncateThreshold) :
    p.replacement? { call with result := .string new } = .ok none := by
  simp only [replacement?, reduceCtorEq, if_false, Json.size?, Json.text?, Bool.and_eq_true,
    decide_eq_true_eq]
  rcases replacement?_cases hold hnew with ⟨herror, hkeep, rfl⟩ | ⟨hkeep, rfl, hlt⟩
  · -- still an error of more than the characters to keep, but its marker is recognised
    have hagain := lt_length_cut p.errorKeepChars hkeep old.length
    rw [if_pos ⟨herror, hagain⟩, cutError, if_pos (endsInMarker_append_marker _ _)]
  · -- it was no error to be cut, and a shorter text is even less so
    have hagain : ¬ (call.isError = true ∧
        p.errorKeepChars < (placeholder old.length call.name.display).length) :=
      fun h => hkeep ⟨h.1, by omega⟩
    rw [if_neg hagain, if_neg (by omega)]

theorem length_placeholder (n : Int) (tool : String) :
    (placeholder n tool).length = 24 + (decimalText n).length + 14 + tool.length + 1 := by
  have hstart : "[Tool result truncated: ".length = 24 := rfl
  have hmiddle : " chars, tool: ".length = 14 := rfl
  have hend : "]".length = 1 := rfl
  unfold placeholder
  rw [String.length_append, String.length_append, String.length_append, String.length_append,
    hstart, hmiddle, hend]

/-- The placeholder for a text that fits in a memory leaves a name room for 1400 characters. -/
theorem length_placeholder_le {n : Nat} {tool : String} (hn : n < 2 ^ 63)
    (htool : tool.length ≤ 1400) : (placeholder n tool).length ≤ 1500 := by
  have hdigits : (Nat.toDigits 10 n).length ≤ 19 :=
    (Nat.length_toDigits_le_iff (by decide) (by decide)).2 (by omega)
  rw [length_placeholder, ← String.length_toList, toList_decimalText]
  omega

end Pruner

end Parley
