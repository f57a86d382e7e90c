import Mathlib.Algebra.GroupWithZero.Nat
import Mathlib.Data.List.Forall2
set_option autoImplicit false

/-! # Lists that are related item by item

Facts about `List.Forall₂` that carry a relation between items over to lists: what stands at an
index, transitivity, and a measure that goes down wherever an item changes. -/

namespace Parley.Pointwise

variable {α β : Type}

theorem exists_of_mem {R : α → β → Prop} {as : List α} {bs : List β} (h : List.Forall₂ R as bs)
    {b : β} (hb : b ∈ bs) : ∃ a ∈ as, R a b := by
  induction h with
  | nil => exact absurd hb (by simp)
  | cons hab _ ih =>
      rcases List.mem_cons.1 hb with rfl | hb
      · exact ⟨_, List.mem_cons_self, hab⟩
      · obtain ⟨a, ha, hr⟩ := ih hb
        exact ⟨a, List.mem_cons_of_mem _ ha, hr⟩

theorem exists_getElem? {R : α → β → Prop} {as : List α} {bs : List β} (h : List.Forall₂ R as bs)
    {i : Nat} {a : α} (ha : as[i]? = some a) : ∃ b, bs[i]? = some b ∧ R a b := by
  induction h generalizing i with
  | nil => exact absurd ha (by simp)
  | cons hab _ ih =>
      cases i with
      | zero =>
          simp only [List.getElem?_cons_zero, Option.some.injEq] at ha
          exact ⟨_, by simp, ha ▸ hab⟩
      | succ i => simpa using ih (by simpa using ha)

theorem exists_append {R : α → β → Prop} {as as' : List α} {bs : List β}
    (h : List.Forall₂ R (as ++ as') bs) :
    ∃ front rest, bs = front ++ rest ∧ List.Forall₂ R as front ∧ List.Forall₂ R as' rest := by
  induction as generalizing bs with
  | nil => exact ⟨[], bs, rfl, .nil, h⟩
  | cons a as ih =>
      cases h with
      | cons hab htail =>
          obtain ⟨front, rest, rfl, hfront, hrest⟩ := ih htail
          exact ⟨_ :: front, rest, rfl, .cons hab hfront, hrest⟩

theorem trans {R : α → α → Prop} (hstep : ∀ a b c, R a b → R b c → R a c) {as bs cs : List α}
    (h : List.Forall₂ R as bs) (h' : List.Forall₂ R bs cs) : List.Forall₂ R as cs := by
  induction h generalizing cs with
  | nil =>
      cases h'
      exact .nil
  | cons hab _ ih =>
      cases h' with
      | cons hbc htail => exact .cons (hstep _ _ _ hab hbc) (ih htail)

/-- Lists of items that agree on something agree on it item by item. -/
theorem map_eq {γ : Type} {R : α → β → Prop} {f : α → γ} {g : β → γ}
    (hitem : ∀ a b, R a b → g b = f a) {as : List α} {bs : List β} (h : List.Forall₂ R as bs) :
    bs.map g = as.map f := by
  induction h with
  | nil => rfl
  | cons hab _ ih => rw [List.map_cons, List.map_cons, hitem _ _ hab, ih]

/-- Where every change of an item makes it smaller, every change of a list makes its sum smaller. -/
theorem eq_or_sum_lt {R : α → α → Prop} {size : α → Nat}
    (hitem : ∀ a b, R a b → b = a ∨ size b < size a) {as bs : List α}
    (h : List.Forall₂ R as bs) : bs = as ∨ (bs.map size).sum < (as.map size).sum := by
  induction h with
  | nil => exact Or.inl rfl
  | cons hab _ ih =>
      simp only [List.map_cons, List.sum_cons]
      rcases hitem _ _ hab with rfl | hlt <;> rcases ih with rfl | hlt'
      · exact Or.inl rfl
      all_goals exact Or.inr (by omega)

end Parley.Pointwise
