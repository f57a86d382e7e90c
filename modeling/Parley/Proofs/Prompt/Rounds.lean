import Parley.Prompt.Rounds
import Parley.Proofs.Ordered
import Parley.Proofs.Pointwise
set_option autoImplicit false

/-! # What trimming leaves alone

Trimming a prompt only puts placeholders in place of long contents of result blocks (`BlockCut`,
`MessageCut`): every message and every block stays in its place, and a block keeps all its fields
but the content. Cuts of cuts are cuts, so this holds for any number of trimmings as well. -/

namespace Parley

namespace Prompt.Rounds

/-! ## Cuts -/

/-- A block that stays as it is, or a result block with a placeholder for its long content. -/
inductive BlockCut : Json → Json → Prop
  | same (block : Json) : BlockCut block block
  | cut {fields : List (String × Json)} {old : String} (size : Nat)
      (hresult : isResult (.object fields) = true)
      (hold : Ordered.find? "content" fields = some (.string old))
      (hlong : keptLength < old.length) :
      BlockCut (.object fields)
        (.object (Ordered.insert "content" (.string (placeholder size)) fields))

/-- A message that stays as it is, or one with blocks that were cut. -/
inductive MessageCut : Json → Json → Prop
  | same (message : Json) : MessageCut message message
  | cut {message : Json} {before after : List Json} (hblocks : blocks? message = some before)
      (hcut : List.Forall₂ BlockCut before after) :
      MessageCut message (withBlocks after message)

/-- All fields but the content survive. -/
theorem BlockCut.field?_eq {before after : Json} (h : BlockCut before after) {name : String}
    (hname : name ≠ "content") : after.field? name = before.field? name := by
  cases h with
  | same => rfl
  | cut size hresult hold hlong =>
      simp only [Json.field?, Ordered.find?_insert, if_neg (Ne.symm hname)]

theorem BlockCut.trans (a b c : Json) (h : BlockCut a b) (h' : BlockCut b c) : BlockCut a c := by
  cases h with
  | same => exact h'
  | cut size hresult hold hlong =>
      cases h' with
      | same => exact .cut size hresult hold hlong
      | cut later =>
          -- the later placeholder takes the place of the earlier one
          rw [Ordered.insert_insert]
          exact .cut later hresult hold hlong

/-- A message that has blocks is an object. -/
theorem blocks?_eq_some {message : Json} {blocks : List Json} (h : blocks? message = some blocks) :
    ∃ fields, message = .object fields ∧
      Ordered.find? "role" fields = some (.string "user") ∧
      Ordered.find? "content" fields = some (.array blocks) := by
  unfold blocks? at h
  split_ifs at h with hrole
  cases message with
  | object fields =>
      obtain ⟨content, hcontent, hitems⟩ := Option.bind_eq_some_iff.1 h
      cases content with
      | array items =>
          simp only [Json.items?, Option.some.injEq] at hitems
          exact ⟨fields, rfl, hrole, hitems ▸ hcontent⟩
      | _ => exact absurd hitems (by simp [Json.items?])
  | _ => exact absurd hrole (by simp [Json.field?])

theorem blocks?_withBlocks {message : Json} {blocks : List Json}
    (h : blocks? message = some blocks) (others : List Json) :
    blocks? (withBlocks others message) = some others := by
  obtain ⟨fields, rfl, hrole, -⟩ := blocks?_eq_some h
  have hne : ¬ "content" = "role" := by decide
  simp only [blocks?, withBlocks, Json.field?, Ordered.find?_insert, if_neg hne, hrole, if_true,
    Option.bind_some, Json.items?]

theorem withBlocks_withBlocks (first second : List Json) (message : Json) :
    withBlocks second (withBlocks first message) = withBlocks second message := by
  cases message with
  | object fields => simp only [withBlocks, Ordered.insert_insert]
  | _ => rfl

theorem withBlocks_eq_self {message : Json} {blocks : List Json}
    (h : blocks? message = some blocks) : withBlocks blocks message = message := by
  obtain ⟨fields, rfl, -, hcontent⟩ := blocks?_eq_some h
  rw [withBlocks, Ordered.insert_eq_self hcontent]

theorem MessageCut.trans (a b c : Json) (h : MessageCut a b) (h' : MessageCut b c) :
    MessageCut a c := by
  cases h with
  | same => exact h'
  | cut hblocks hcut =>
      cases h' with
      | same => exact .cut hblocks hcut
      | cut hblocks' hcut' =>
          rw [blocks?_withBlocks hblocks] at hblocks'
          cases hblocks'
          rw [withBlocks_withBlocks]
          exact .cut hblocks (Pointwise.trans BlockCut.trans hcut hcut')

theorem cut_refl (prompt : List Json) : List.Forall₂ MessageCut prompt prompt :=
  List.forall₂_same.2 fun message _ => .same message

/-! ## Trimming cuts -/

theorem blockCut_of_shortened? {block short : Json} {sizes : Nat × Nat}
    (hresult : isResult block = true) (h : shortened? block = some (short, sizes)) :
    BlockCut block short := by
  cases block with
  | object fields =>
      simp only [shortened?] at h
      split at h
      · next old hold =>
          split_ifs at h with hlong
          simp only [Option.some.injEq, Prod.mk.injEq] at h
          rw [← h.1]
          exact .cut _ hresult hold hlong
      · exact absurd h (by simp)
  | _ => exact absurd h (by simp [shortened?])

theorem trimBlocks_cut (keep later : Nat) (blocks : List Json) :
    List.Forall₂ BlockCut blocks (trimBlocks keep later blocks).1 := by
  induction blocks with
  | nil => exact .nil
  | cons block rest ih =>
      simp only [trimBlocks]
      split_ifs with hresult hold
      · split
        · next short cut hshort => exact .cons (blockCut_of_shortened? hresult hshort) ih
        · exact .cons (.same block) ih
      · exact .cons (.same block) ih
      · exact .cons (.same block) ih

theorem trimMessages_cut (keep : Nat) (prompt : List Json) :
    List.Forall₂ MessageCut prompt (trimMessages keep prompt).1 := by
  induction prompt with
  | nil => exact .nil
  | cons message rest ih =>
      simp only [trimMessages]
      split
      · next blocks hblocks => exact .cons (.cut hblocks (trimBlocks_cut _ _ blocks)) ih
      · exact .cons (.same message) ih

/-- Trimming cuts, and nothing else. -/
theorem cut_of_trim {keep : Int} {prompt : List Json} {trimmed : Trimmed}
    (h : trim keep prompt = .ok trimmed) : List.Forall₂ MessageCut prompt trimmed.prompt := by
  unfold trim at h
  split_ifs at h
  simp only [Except.ok.injEq] at h
  rw [← h]
  exact trimMessages_cut keep.toNat prompt

/-- A prompt of objects can be trimmed. -/
theorem trim_isOk (keep : Int) {prompt : List Json}
    (h : ∀ message ∈ prompt, message.fields?.isSome = true) :
    ∃ trimmed, trim keep prompt = .ok trimmed := by
  unfold trim
  rw [if_pos (List.all_eq_true.2 h)]
  exact ⟨_, rfl⟩

/-- What was cut is still an object. -/
theorem MessageCut.isSome_fields? {before after : Json} (h : MessageCut before after)
    (hbefore : before.fields?.isSome = true) : after.fields?.isSome = true := by
  cases h with
  | same => exact hbefore
  | cut hblocks hcut =>
      obtain ⟨fields, rfl, -⟩ := blocks?_eq_some hblocks
      rfl

end Prompt.Rounds

end Parley
