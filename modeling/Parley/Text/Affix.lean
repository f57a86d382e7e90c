set_option autoImplicit false

/-! # Beginnings and ends of texts

Tests for a text at the beginning or the end of another one, and what is left without it, on lists
of characters. -/

namespace Parley.Text

/-- What follows a beginning, if the text begins with it. -/
def afterPrefix? : List Char → List Char → Option (List Char)
  | [], text => some text
  | _ :: _, [] => none
  | a :: start, b :: text => if a = b then afterPrefix? start text else none

/-- A text begins with another one exactly if it is that one followed by what is left. -/
theorem afterPrefix?_eq_some_iff {start text rest : List Char} :
    afterPrefix? start text = some rest ↔ text = start ++ rest := by
  induction start generalizing text with
  | nil => simp [afterPrefix?, eq_comm]
  | cons a start ih =>
      cases text with
      | nil => simp [afterPrefix?]
      | cons b text =>
          by_cases h : a = b
          · subst h
            simp [afterPrefix?, ih]
          · simp [afterPrefix?, h, Ne.symm h]

theorem afterPrefix?_eq_none {start text : List Char} (h : ¬ start <+: text) :
    afterPrefix? start text = none := by
  rw [Option.eq_none_iff_forall_ne_some]
  intro rest hrest
  exact h ⟨rest, (afterPrefix?_eq_some_iff.1 hrest).symm⟩

/-- The text begins with a given one. -/
def startsWith (start text : String) : Bool :=
  (afterPrefix? start.toList text.toList).isSome

theorem startsWith_iff {start text : String} :
    startsWith start text = true ↔ start.toList <+: text.toList := by
  unfold startsWith
  rw [Option.isSome_iff_exists]
  simp only [afterPrefix?_eq_some_iff]
  exact exists_congr fun rest => eq_comm

/-- What comes before an end, if the text ends with it. -/
def beforeSuffix? (ending text : List Char) : Option (List Char) :=
  (afterPrefix? ending.reverse text.reverse).map List.reverse

/-- A text ends with another one exactly if it is what comes before followed by that one. -/
theorem beforeSuffix?_eq_some_iff {ending text front : List Char} :
    beforeSuffix? ending text = some front ↔ text = front ++ ending := by
  unfold beforeSuffix?
  rw [Option.map_eq_some_iff]
  constructor
  · rintro ⟨rest, hrest, rfl⟩
    have h := congrArg List.reverse (afterPrefix?_eq_some_iff.1 hrest)
    simpa using h
  · rintro rfl
    exact ⟨front.reverse, afterPrefix?_eq_some_iff.2 (by simp), by simp⟩

theorem beforeSuffix?_eq_none {ending text : List Char} (h : ¬ ending <:+ text) :
    beforeSuffix? ending text = none := by
  rw [Option.eq_none_iff_forall_ne_some]
  intro front hfront
  exact h ⟨front, (beforeSuffix?_eq_some_iff.1 hfront).symm⟩

/-- The text ends with a given one. -/
def endsWith (ending text : String) : Bool :=
  (beforeSuffix? ending.toList text.toList).isSome

theorem endsWith_iff {ending text : String} :
    endsWith ending text = true ↔ ending.toList <:+ text.toList := by
  unfold endsWith
  rw [Option.isSome_iff_exists]
  simp only [beforeSuffix?_eq_some_iff]
  exact exists_congr fun front => eq_comm

end Parley.Text
