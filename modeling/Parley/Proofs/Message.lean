import Parley.Message
import Parley.Budget
import Parley.Proofs.Pointwise
set_option autoImplicit false

/-! # Conversations whose results are texts

Compaction is about conversations in which every result is a text or null. One such conversation is
*shrunk* to another when nothing but results changes, and a result changes only where a text gives
way to a shorter one. Shrinking is transitive, and a message that was shrunk is either the same
message or has fewer characters (`Message.Shrunk.eq_or_lt`), so nothing that was changed can come
back. -/

namespace Parley

/-! ## Texts -/

/-- A text or null. -/
def Json.isTextual : Json → Bool
  | .null => true
  | .string _ => true
  | _ => false

/-- The number of characters of a text; other values have none. -/
def Json.textSize : Json → Nat
  | .string text => text.length
  | _ => 0

/-- The characters of a message: its content and the results of its tool calls. -/
def Message.textSize (m : Message) : Nat :=
  m.content.textSize + (m.toolCalls.map fun call => call.result.textSize).sum

/-- The results of a message are texts or null. -/
def Message.TextResults (m : Message) : Prop :=
  ∀ call ∈ m.toolCalls, call.result.isTextual = true

instance (m : Message) : Decidable m.TextResults :=
  inferInstanceAs (Decidable (∀ call ∈ m.toolCalls, call.result.isTextual = true))

theorem Json.textual_cases {value : Json} (h : value.isTextual = true) :
    value = .null ∨ ∃ text, value = .string text := by
  cases value with
  | null => exact Or.inl rfl
  | string text => exact Or.inr ⟨text, rfl⟩
  | _ => exact absurd h (by simp [Json.isTextual])

/-! ## Counting characters -/

namespace Budget

theorem chars_eq {value : Json} (h : value.isTextual = true) :
    chars value = .ok value.textSize := by
  rcases Json.textual_cases h with rfl | ⟨text, rfl⟩
  · rfl
  · -- the empty text counts as false, and it has no characters either
    by_cases hempty : text.isEmpty = true
    · have hlength : text.length = 0 := by simpa [String.isEmpty_iff] using hempty
      simp [chars, Json.truthy, hempty, Json.textSize, hlength]
    · simp [chars, Json.truthy, hempty, Json.textSize, Json.size?]

theorem callChars_eq {calls : List ToolCall}
    (h : ∀ call ∈ calls, call.result.isTextual = true) :
    callChars calls = .ok (calls.map fun call => call.result.textSize).sum := by
  induction calls with
  | nil => rfl
  | cons call rest ih =>
      have hrest := ih fun other hother => h other (List.mem_cons_of_mem _ hother)
      simp only [callChars, chars_eq (h call List.mem_cons_self), hrest, bind, Except.bind,
        List.map_cons, List.sum_cons]
      rfl

/-- The characters of a conversation of texts are counted without a fault. -/
theorem messageChars_eq {messages : List Message}
    (hcontent : ∀ m ∈ messages, m.content.isTextual = true)
    (hresults : ∀ m ∈ messages, m.TextResults) :
    messageChars messages = .ok (messages.map Message.textSize).sum := by
  induction messages with
  | nil => rfl
  | cons m rest ih =>
      have hrest := ih (fun other hother => hcontent other (List.mem_cons_of_mem _ hother))
        fun other hother => hresults other (List.mem_cons_of_mem _ hother)
      simp only [messageChars, chars_eq (hcontent m List.mem_cons_self),
        callChars_eq (hresults m List.mem_cons_self), hrest, bind, Except.bind, List.map_cons,
        List.sum_cons]
      rfl

end Budget

/-! ## Shrinking -/

/-- A value that stays as it is, or a text that gives way to a shorter one. -/
inductive Json.Shrunk : Json → Json → Prop
  | same (value : Json) : Shrunk value value
  | shorter {old new : String} (h : new.length < old.length) :
      Shrunk (.string old) (.string new)

/-- A tool call of which at most the result was shrunk. -/
structure ToolCall.Shrunk (before after : ToolCall) : Prop where
  id : after.id = before.id
  name : after.name = before.name
  args : after.args = before.args
  isError : after.isError = before.isError
  result : before.result.Shrunk after.result

/-- A message of which at most the results were shrunk: it has the same tool calls in the same
    order. -/
structure Message.Shrunk (before after : Message) : Prop where
  role : after.role = before.role
  content : after.content = before.content
  toolCalls : List.Forall₂ ToolCall.Shrunk before.toolCalls after.toolCalls

namespace Json.Shrunk

theorem trans {a b c : Json} (h : Shrunk a b) (h' : Shrunk b c) : Shrunk a c := by
  cases h with
  | same => exact h'
  | shorter hab =>
      cases h' with
      | same => exact .shorter hab
      | shorter hbc => exact .shorter (Nat.lt_trans hbc hab)

theorem isTextual_eq {a b : Json} (h : Shrunk a b) : b.isTextual = a.isTextual := by
  cases h <;> rfl

theorem eq_or_lt {a b : Json} (h : Shrunk a b) : b = a ∨ b.textSize < a.textSize := by
  cases h with
  | same => exact Or.inl rfl
  | shorter hlt => exact Or.inr hlt

end Json.Shrunk

namespace ToolCall.Shrunk

theorem refl (call : ToolCall) : Shrunk call call :=
  ⟨rfl, rfl, rfl, rfl, .same _⟩

theorem trans {a b c : ToolCall} (h : Shrunk a b) (h' : Shrunk b c) : Shrunk a c where
  id := h'.id.trans h.id
  name := h'.name.trans h.name
  args := h'.args.trans h.args
  isError := h'.isError.trans h.isError
  result := h.result.trans h'.result

theorem eq_or_lt {a b : ToolCall} (h : Shrunk a b) :
    b = a ∨ b.result.textSize < a.result.textSize := by
  rcases h.result.eq_or_lt with hresult | hlt
  · exact Or.inl (ToolCall.mk.injEq .. ▸ ⟨h.id, h.name, h.args, hresult, h.isError⟩)
  · exact Or.inr hlt

end ToolCall.Shrunk

namespace Message.Shrunk

theorem refl (m : Message) : Shrunk m m :=
  ⟨rfl, rfl, List.forall₂_same.2 fun call _ => ToolCall.Shrunk.refl call⟩

theorem trans {a b c : Message} (h : Shrunk a b) (h' : Shrunk b c) : Shrunk a c where
  role := h'.role.trans h.role
  content := h'.content.trans h.content
  toolCalls := Pointwise.trans @ToolCall.Shrunk.trans h.toolCalls h'.toolCalls

/-- A message that was shrunk is the same message or has fewer characters. -/
theorem eq_or_lt {a b : Message} (h : Shrunk a b) : b = a ∨ b.textSize < a.textSize := by
  rcases Pointwise.eq_or_sum_lt @ToolCall.Shrunk.eq_or_lt h.toolCalls with heq | hlt
  · exact Or.inl (Message.mk.injEq .. ▸ ⟨h.role, h.content, heq⟩)
  · refine Or.inr ?_
    unfold textSize
    rw [h.content]
    exact Nat.add_lt_add_left hlt _

theorem textSize_le {a b : Message} (h : Shrunk a b) : b.textSize ≤ a.textSize := by
  rcases h.eq_or_lt with rfl | hlt
  · exact Nat.le_refl _
  · exact Nat.le_of_lt hlt

/-- A message that was shrunk twice and is as it was at first was never changed. -/
theorem eq_of_return {a b : Message} (h : Shrunk a b) (h' : Shrunk b a) : b = a := by
  rcases h.eq_or_lt with heq | hlt
  · exact heq
  · have hle := h'.textSize_le
    omega

theorem textResults {a b : Message} (h : Shrunk a b) (ha : a.TextResults) : b.TextResults := by
  intro call hcall
  obtain ⟨old, hold, hshrunk⟩ := Pointwise.exists_of_mem h.toolCalls hcall
  rw [hshrunk.result.isTextual_eq]
  exact ha old hold

end Message.Shrunk

end Parley
