import Parley.Window
import Parley.Proofs.Message
set_option autoImplicit false

/-! # Where the window starts

The start of the window depends on nothing but on which messages are the user's, so shrinking a
conversation leaves it in place. Messages that are added at the end can only move it forward. -/

namespace Parley.Window

theorem start_eq_of_isUser {before after : List Message} (size : Int)
    (h : after.map Message.isUser = before.map Message.isUser) :
    start after size = start before size := by
  unfold start
  generalize reach size = wanted
  induction before generalizing after with
  | nil => rw [List.map_eq_nil_iff.1 h]
  | cons m rest ih =>
      cases after with
      | nil => exact absurd h (by simp)
      | cons m' rest' =>
          simp only [List.map_cons, List.cons.injEq] at h
          have hcount : userCount rest' = userCount rest := by
            have hmap := congrArg (List.countP id) h.2
            simpa [userCount, List.countP_map, Function.comp_def] using hmap
          simp only [lengthBefore, hcount, ih h.2]

theorem map_isUser_of_shrunk {before after : List Message}
    (h : List.Forall₂ Message.Shrunk before after) :
    after.map Message.isUser = before.map Message.isUser := by
  induction h with
  | nil => rfl
  | cons hm _ ih => simp only [List.map_cons, ih, Message.isUser, hm.role]

/-- Shrinking a conversation leaves the start of the window in place. -/
theorem start_eq_of_shrunk {before after : List Message} (size : Int)
    (h : List.Forall₂ Message.Shrunk before after) : start after size = start before size :=
  start_eq_of_isUser size (map_isUser_of_shrunk h)

theorem lengthBefore_le_length (wanted : Nat) (messages : List Message) :
    lengthBefore wanted messages ≤ messages.length := by
  induction messages with
  | nil => exact Nat.le_refl 0
  | cons m rest ih =>
      simp only [lengthBefore, List.length_cons]
      split <;> omega

theorem start_le_length (messages : List Message) (size : Int) :
    start messages size ≤ messages.length :=
  lengthBefore_le_length (reach size) messages

/-- Messages that are added at the end do not move the window back. -/
theorem start_le_start_append (messages added : List Message) (size : Int) :
    start messages size ≤ start (messages ++ added) size := by
  unfold start
  generalize reach size = wanted
  induction messages with
  | nil => exact Nat.zero_le _
  | cons m rest ih =>
      simp only [lengthBefore, List.cons_append]
      by_cases hrest : wanted ≤ userCount rest
      · -- enough user messages come after `m`, so more messages do not change that
        have hall : wanted ≤ userCount (rest ++ added) := by
          simp only [userCount, List.countP_append] at hrest ⊢
          omega
        rw [if_pos hrest, if_pos hall]
        omega
      · rw [if_neg hrest]
        exact Nat.zero_le _

theorem reach_le_reach {size size' : Int} (h : size' ≤ size) : reach size' ≤ reach size := by
  unfold reach
  split_ifs <;> omega

/-- The fewer user messages are wanted, the later they begin. -/
theorem lengthBefore_le_lengthBefore {wanted wanted' : Nat} (h : wanted' ≤ wanted)
    (messages : List Message) : lengthBefore wanted messages ≤ lengthBefore wanted' messages := by
  induction messages with
  | nil => exact Nat.le_refl _
  | cons m rest ih =>
      simp only [lengthBefore]
      by_cases hrest : wanted ≤ userCount rest
      · rw [if_pos hrest, if_pos (Nat.le_trans h hrest)]
        omega
      · rw [if_neg hrest]
        exact Nat.zero_le _

/-- Neither messages at the end nor a narrower window move the start of the window back. -/
theorem start_le_start (messages added : List Message) {size size' : Int} (h : size' ≤ size) :
    start messages size ≤ start (messages ++ added) size' :=
  calc start messages size
      ≤ start messages size' := lengthBefore_le_lengthBefore (reach_le_reach h) messages
    _ ≤ start (messages ++ added) size' := start_le_start_append messages added size'

end Parley.Window
