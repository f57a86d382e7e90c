import Parley.Number
set_option autoImplicit false

/-! # The order of numbers

Numbers are compared where they lie on the extended line of rationals, whatever their kind. The
comparison is transitive, and of two numbers that lie on the line one is at most the other, so that
`<` is the opposite of `≥` there. What is not a number lies nowhere and is related to nothing. -/

namespace Parley.Number

theorem Place.le_trans {p q r : Place} (h : p.le q = true) (h' : q.le r = true) :
    p.le r = true := by
  cases p <;> cases q <;> cases r <;> simp [Place.le] at h h' ⊢
  exact Rat.le_trans h h'

theorem Place.le_total (p q : Place) : p.le q = true ∨ q.le p = true := by
  cases p <;> cases q <;> simp [Place.le, Rat.le_total]

/-- Two numbers are compared where they lie. -/
theorem le_iff {a b : Number} :
    a.le b = true ↔ ∃ p q, a.place? = some p ∧ b.place? = some q ∧ p.le q = true := by
  unfold le
  cases a.place? <;> cases b.place? <;> simp

theorem le_trans {a b c : Number} (h : a.le b = true) (h' : b.le c = true) : a.le c = true := by
  obtain ⟨p, q, hp, hq, hpq⟩ := le_iff.1 h
  obtain ⟨q', r, hq', hr, hqr⟩ := le_iff.1 h'
  rw [hq, Option.some.injEq] at hq'
  subst hq'
  exact le_iff.2 ⟨p, r, hp, hr, Place.le_trans hpq hqr⟩

/-- A number that something is at most lies on the line. -/
theorem isSome_place?_of_le {a b : Number} (h : a.le b = true) : b.place?.isSome = true := by
  obtain ⟨p, q, -, hq, -⟩ := le_iff.1 h
  rw [hq]
  rfl

/-- On the line, `<` is the opposite of `≥`. -/
theorem lt_iff_not_le {a b : Number} (ha : a.place?.isSome = true) (hb : b.place?.isSome = true) :
    a.lt b = true ↔ b.le a = false := by
  obtain ⟨p, hp⟩ := Option.isSome_iff_exists.1 ha
  obtain ⟨q, hq⟩ := Option.isSome_iff_exists.1 hb
  have htotal := Place.le_total p q
  simp only [lt, le, hp, hq, Bool.and_eq_true, Bool.not_eq_true']
  constructor
  · intro h
    exact h.2
  · intro h
    rw [h] at htotal
    exact ⟨htotal.resolve_right (by simp), h⟩

/-- What is not a number is related to nothing. -/
theorem le_eq_false_of_place?_eq_none {a b : Number} (h : a.place? = none) : a.le b = false := by
  simp [le, h]

end Parley.Number
