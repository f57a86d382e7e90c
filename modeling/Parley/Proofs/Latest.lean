import Mathlib.Data.List.Induction
set_option autoImplicit false

/-! # The latest item of a history

Histories grow at their end. What was the latest item of a kind, with only quiet ones behind it, is
decided by the item that came in last, or it is what it was before. -/

namespace Parley

variable {α : Type} {kind quiet : α → Prop}

/-- The latest item of a kind is the last one, or the one before it that a quiet item leaves. -/
theorem exists_latest_append_singleton {history : List α} {next : α} :
    (∃ before item after, history ++ [next] = before ++ item :: after ∧ kind item ∧
        ∀ later ∈ after, quiet later)
      ↔ kind next ∨ quiet next ∧ ∃ before item after, history = before ++ item :: after ∧
          kind item ∧ ∀ later ∈ after, quiet later := by
  constructor
  · rintro ⟨before, item, after, hsplit, hkind, hafter⟩
    rcases List.eq_nil_or_concat after with rfl | ⟨init, last, rfl⟩
    · obtain ⟨-, hlast⟩ := List.append_inj' hsplit rfl
      obtain ⟨rfl, -⟩ := List.cons.inj hlast
      exact .inl hkind
    · rw [List.concat_eq_append] at hsplit hafter
      have hassoc : before ++ item :: (init ++ [last]) = (before ++ item :: init) ++ [last] := by
        simp
      obtain ⟨rfl, hlast⟩ := List.append_inj' (hsplit.trans hassoc) rfl
      obtain ⟨rfl, -⟩ := List.cons.inj hlast
      refine .inr ⟨hafter next (by simp), before, item, init, rfl, hkind, ?_⟩
      intro later hlater
      exact hafter later (List.mem_append_left _ hlater)
  · rintro (hkind | ⟨hnext, before, item, after, rfl, hkind, hafter⟩)
    · exact ⟨history, next, [], rfl, hkind, by simp⟩
    · refine ⟨before, item, after ++ [next], by simp, hkind, ?_⟩
      intro later hlater
      rcases List.mem_append.1 hlater with hold | hnew
      · exact hafter later hold
      · rwa [List.mem_singleton.1 hnew]

end Parley
