import Parley.Prompt.Buffer
import Parley.Proofs.Pruner
import Parley.Proofs.Prompt.Rounds
set_option autoImplicit false

/-! # Trimming block by block

Whether a result gives way depends on its own text and on how many results come after it, and on
nothing else (`longText?`). A trimming is this decision for every block (`trim_eq_ok`), so what it
leaves at a place of the prompt can be read off (`blockAt_trimmedPrompt`).

Two facts make trimmings compose. Messages that are appended only raise the number of results that
come after a block, so what gave way once gives way for good. And a placeholder is short enough to
be kept, so it never gives way itself. Trimming what was trimmed before is therefore the same as
trimming once, and the cuts of the two add up (`trimmedPrompt_again`). -/

namespace Parley.Prompt.Rounds

/-! ## One block -/

/-- The text of a result block. -/
def resultText? (block : Json) : Option String :=
  if isResult block then (block.field? "content").bind Json.text? else none

/-- A block with another text for its content. -/
def withText (text : String) : Json → Json
  | .object fields => .object (Ordered.insert "content" (.string text) fields)
  | other => other

/-- The text of a block that gives way when `after` results come after it. -/
def longText? (keep after : Nat) (block : Json) : Option String :=
  if keep ≤ after then (resultText? block).filter fun text => decide (keptLength < text.length)
  else none

/-- What is left of a block with `after` results after it. -/
def shown (keep after : Nat) (block : Json) : Json :=
  match longText? keep after block with
  | some text => withText (placeholder text.length) block
  | none => block

/-- The lengths before and after, if a block gives way. -/
def cutsOf (keep after : Nat) (block : Json) : List (Nat × Nat) :=
  match longText? keep after block with
  | some text => [(text.length, (placeholder text.length).length)]
  | none => []

/-- The text of a block, if it is the text of a result, has fewer than `limit` characters. -/
def Below (limit : Nat) (block : Json) : Prop :=
  ∀ text, resultText? block = some text → text.length < limit

instance (limit : Nat) (block : Json) : Decidable (Below limit block) :=
  decidable_of_iff ((resultText? block).all fun text => decide (text.length < limit)) (by
    unfold Below
    cases resultText? block <;> simp)

theorem longText?_eq_some_iff {keep after : Nat} {block : Json} {text : String} :
    longText? keep after block = some text
      ↔ keep ≤ after ∧ resultText? block = some text ∧ keptLength < text.length := by
  unfold longText?
  split_ifs with hkeep
  · rw [Option.filter_eq_some_iff, decide_eq_true_eq]
    exact ⟨fun h => ⟨hkeep, h⟩, fun h => h.2⟩
  · simp [hkeep]

theorem exists_object_of_isResult {block : Json} (h : isResult block = true) :
    ∃ fields, block = .object fields := by
  cases block with
  | object fields => exact ⟨fields, rfl⟩
  | _ => exact absurd h (by simp [isResult, Json.field?])

@[simp] theorem isResult_withText (text : String) (block : Json) :
    isResult (withText text block) = isResult block := by
  cases block with
  | object fields =>
      have hne : ¬ "content" = "type" := by decide
      have htype : (withText text (.object fields)).field? "type"
          = (Json.object fields).field? "type" := by
        simp only [withText, Json.field?, Ordered.find?_insert, if_neg hne]
      rw [isResult, htype, isResult]
  | _ => rfl

@[simp] theorem isResult_shown (keep after : Nat) (block : Json) :
    isResult (shown keep after block) = isResult block := by
  unfold shown
  split
  · exact isResult_withText _ _
  · rfl

theorem resultText?_withText {block : Json} (h : isResult block = true) (text : String) :
    resultText? (withText text block) = some text := by
  obtain ⟨fields, rfl⟩ := exists_object_of_isResult h
  unfold resultText?
  rw [isResult_withText, if_pos h]
  simp only [withText, Json.field?, Ordered.find?_insert, if_pos, Option.bind_some, Json.text?]

@[simp] theorem isResult_toolResultBlock (id content : Json) (isError : Bool) :
    isResult (toolResultBlock id content isError) = true := by
  simp [isResult, toolResultBlock, Json.field?, Ordered.find?]

@[simp] theorem resultText?_toolResultBlock (id : Json) (text : String) (isError : Bool) :
    resultText? (toolResultBlock id (.string text) isError) = some text := by
  rw [resultText?, if_pos (isResult_toolResultBlock _ _ _)]
  simp [toolResultBlock, Json.field?, Ordered.find?, Json.text?]

@[simp] theorem withText_toolResultBlock (text : String) (id content : Json) (isError : Bool) :
    withText text (toolResultBlock id content isError)
      = toolResultBlock id (.string text) isError := by
  simp [withText, toolResultBlock, Ordered.insert]

theorem isResult_of_resultText? {block : Json} {text : String}
    (h : resultText? block = some text) : isResult block = true := by
  unfold resultText? at h
  split_ifs at h with hresult
  exact hresult

theorem resultText?_eq_some_iff {block : Json} {text : String} :
    resultText? block = some text
      ↔ isResult block = true ∧ block.field? "content" = some (.string text) := by
  constructor
  · intro h
    have hresult := isResult_of_resultText? h
    rw [resultText?, if_pos hresult] at h
    obtain ⟨content, hcontent, htext⟩ := Option.bind_eq_some_iff.1 h
    cases content with
    | string other =>
        rw [Json.text?, Option.some.injEq] at htext
        exact ⟨hresult, htext ▸ hcontent⟩
    | _ => exact absurd htext (by simp [Json.text?])
  · rintro ⟨hresult, hcontent⟩
    rw [resultText?, if_pos hresult, hcontent]
    rfl

/-- A block gives way exactly if it is a result with a long text and enough results after it. -/
theorem shortened?_eq {block : Json} (h : isResult block = true) :
    shortened? block
      = ((resultText? block).filter fun text => decide (keptLength < text.length)).map fun text =>
          (withText (placeholder text.length) block, text.length,
            (placeholder text.length).length) := by
  obtain ⟨fields, rfl⟩ := exists_object_of_isResult h
  unfold resultText?
  rw [if_pos h]
  simp only [shortened?, Json.field?]
  cases Ordered.find? "content" fields with
  | none => rfl
  | some content =>
      cases content with
      | string text =>
          simp only [Option.bind_some, Json.text?, Option.filter_some, decide_eq_true_eq]
          split_ifs <;> rfl
      | _ => rfl

/-! ## Placeholders are kept -/

theorem length_placeholder (n : Nat) :
    (placeholder n).length = 31 + (Nat.toDigits 10 n).length := by
  have hstart : "[Tool result truncated: ".length = 24 := rfl
  have hend : " chars]".length = 7 := rfl
  unfold placeholder
  rw [String.length_append, String.length_append, hstart, hend, ← String.length_toList,
    toList_decimalText]
  omega

theorem length_placeholder_le {n : Nat} (h : n < 2 ^ 63) :
    (placeholder n).length ≤ keptLength := by
  have hdigits : (Nat.toDigits 10 n).length ≤ 19 :=
    (Nat.length_toDigits_le_iff (by decide) (by decide)).2 (by omega)
  rw [length_placeholder, keptLength]
  omega

/-- What is left of a block does not give way again. -/
theorem longText?_shown {keep after : Nat} {block : Json} {text : String}
    (hbelow : Below (2 ^ 63) block) (h : longText? keep after block = some text) (later : Nat) :
    longText? keep later (shown keep after block) = none := by
  obtain ⟨-, htext, -⟩ := longText?_eq_some_iff.1 h
  have hshort := length_placeholder_le (hbelow text htext)
  rw [shown, h]
  refine Option.eq_none_iff_forall_ne_some.2 fun short hagain => ?_
  obtain ⟨-, hshown, hlong⟩ := longText?_eq_some_iff.1 hagain
  rw [resultText?_withText (isResult_of_resultText? htext), Option.some.injEq] at hshown
  rw [← hshown] at hlong
  omega

/-- A block that was trimmed with fewer results after it, and the cuts of both times. -/
theorem shown_again (keep : Nat) {after later : Nat} {block : Json} (hle : after ≤ later)
    (hbelow : Below (2 ^ 63) block) :
    shown keep later (shown keep after block) = shown keep later block ∧
      cutsOf keep after block ++ cutsOf keep later (shown keep after block)
        = cutsOf keep later block := by
  cases h : longText? keep after block with
  | none =>
      have hsame : shown keep after block = block := by rw [shown, h]
      have hcuts : cutsOf keep after block = [] := by rw [cutsOf, h]
      rw [hsame, hcuts, List.nil_append]
      exact ⟨rfl, rfl⟩
  | some text =>
      obtain ⟨hkeep, htext⟩ := longText?_eq_some_iff.1 h
      have hlater : longText? keep later block = some text :=
        longText?_eq_some_iff.2 ⟨hkeep.trans hle, htext⟩
      have hnone := longText?_shown hbelow h later
      have hfirst : shown keep later block = shown keep after block := by
        rw [shown, shown, hlater, h]
      have hcuts : cutsOf keep later block = cutsOf keep after block := by
        rw [cutsOf, cutsOf, hlater, h]
      rw [hfirst, hcuts]
      constructor
      · rw [shown, hnone]
      · rw [cutsOf.eq_1 keep later, hnone, List.append_nil]

/-- A block that changes gives way, and stays away however many results come later. -/
theorem shown_of_ne {keep after : Nat} {block : Json} (h : shown keep after block ≠ block) :
    ∃ text, resultText? block = some text ∧ keptLength < text.length ∧
      ∀ later, after ≤ later → shown keep later block = withText (placeholder text.length) block := by
  cases hlong : longText? keep after block with
  | none => exact absurd (by rw [shown, hlong]) h
  | some text =>
      obtain ⟨hkeep, htext, hlength⟩ := longText?_eq_some_iff.1 hlong
      refine ⟨text, htext, hlength, fun later hle => ?_⟩
      rw [shown, longText?_eq_some_iff.2 ⟨hkeep.trans hle, htext, hlength⟩]

/-! ## The blocks of a message -/

/-- The number of results among some blocks. -/
def resultCount (blocks : List Json) : Nat :=
  blocks.countP isResult

/-- The blocks of a message after trimming, with `later` results in the messages after it. -/
def trimmedBlocks (keep later : Nat) : List Json → List Json
  | [] => []
  | block :: rest =>
      shown keep (later + resultCount rest) block :: trimmedBlocks keep later rest

/-- The cuts in the blocks of a message. -/
def blockCuts (keep later : Nat) : List Json → List (Nat × Nat)
  | [] => []
  | block :: rest => cutsOf keep (later + resultCount rest) block ++ blockCuts keep later rest

theorem resultCount_cons (block : Json) (rest : List Json) :
    resultCount (block :: rest) = resultCount rest + if isResult block then 1 else 0 :=
  List.countP_cons

@[simp] theorem resultCount_trimmedBlocks (keep later : Nat) (blocks : List Json) :
    resultCount (trimmedBlocks keep later blocks) = resultCount blocks := by
  induction blocks with
  | nil => rfl
  | cons block rest ih => rw [trimmedBlocks, resultCount_cons, resultCount_cons, ih, isResult_shown]

theorem trimBlocks_eq (keep later : Nat) (blocks : List Json) :
    trimBlocks keep later blocks
      = (trimmedBlocks keep later blocks, later + resultCount blocks,
          blockCuts keep later blocks) := by
  induction blocks with
  | nil => rfl
  | cons block rest ih =>
      simp only [trimBlocks, ih, trimmedBlocks, blockCuts, resultCount_cons, shown, cutsOf]
      by_cases hresult : isResult block = true
      -- a result is looked at only with enough results after it, and counted in any case
      · rw [if_pos hresult, if_pos hresult, ← Nat.add_assoc]
        by_cases hkeep : keep ≤ later + resultCount rest
        · rw [if_pos hkeep, shortened?_eq hresult, longText?, if_pos hkeep]
          cases (resultText? block).filter fun text => decide (keptLength < text.length) <;> rfl
        · rw [if_neg hkeep, longText?, if_neg hkeep]
          rfl
      · have hnone : longText? keep (later + resultCount rest) block = none := by
          simp [longText?, resultText?, hresult]
        rw [if_neg hresult, if_neg hresult, hnone]
        rfl

theorem getElem?_trimmedBlocks (keep later : Nat) (blocks : List Json) (j : Nat) :
    (trimmedBlocks keep later blocks)[j]?
      = blocks[j]?.map (shown keep (later + resultCount (blocks.drop (j + 1)))) := by
  induction blocks generalizing j with
  | nil => rfl
  | cons block rest ih =>
      cases j with
      | zero => rfl
      | succ j =>
          rw [trimmedBlocks, List.getElem?_cons_succ, List.getElem?_cons_succ, ih,
            List.drop_succ_cons]

/-- What four lists of cuts come to does not depend on their order. -/
theorem perm_of_split {first second rest rest' whole wholeRest : List (Nat × Nat)}
    (hhead : (first ++ second).Perm whole) (htail : (rest ++ rest').Perm wholeRest) :
    ((first ++ rest) ++ (second ++ rest')).Perm (whole ++ wholeRest) := by
  refine List.Perm.trans (List.perm_iff_count.2 fun cut => ?_) (hhead.append htail)
  simp only [List.count_append]
  omega

theorem trimmedBlocks_again (keep : Nat) {later later' : Nat} (hle : later ≤ later')
    {blocks : List Json}
    (hbelow : ∀ block ∈ blocks, Below (2 ^ 63) block) :
    trimmedBlocks keep later' (trimmedBlocks keep later blocks) = trimmedBlocks keep later' blocks ∧
      (blockCuts keep later blocks ++ blockCuts keep later' (trimmedBlocks keep later blocks)).Perm
        (blockCuts keep later' blocks) := by
  induction blocks with
  | nil => exact ⟨rfl, .nil⟩
  | cons block rest ih =>
      obtain ⟨hrest, hcuts⟩ := ih fun other hother => hbelow other (List.mem_cons_of_mem _ hother)
      -- what is left of the rest holds as many results as the rest
      obtain ⟨hblock, hcut⟩ := shown_again keep
        (Nat.add_le_add_right hle (resultCount rest)) (hbelow block List.mem_cons_self)
      constructor
      · rw [trimmedBlocks, trimmedBlocks, resultCount_trimmedBlocks, hblock, hrest, trimmedBlocks]
      · rw [trimmedBlocks, blockCuts, blockCuts, blockCuts, resultCount_trimmedBlocks]
        exact perm_of_split (by rw [hcut]) hcuts

/-! ## The messages of a prompt -/

/-- The blocks that a message holds for trimming. -/
def blocksIn (message : Json) : List Json :=
  (blocks? message).getD []

@[simp] theorem blocks?_entry_user (blocks : List Json) :
    blocks? (entry "user" (.array blocks)) = some blocks := by
  simp [blocks?, entry, Json.field?, Ordered.find?, Json.items?]

@[simp] theorem blocks?_entry_assistant (content : Json) :
    blocks? (entry "assistant" content) = none := by
  simp [blocks?, entry, Json.field?, Ordered.find?]

@[simp] theorem withBlocks_entry (role : String) (blocks : List Json) (content : Json) :
    withBlocks blocks (entry role content) = entry role (.array blocks) := by
  simp [withBlocks, entry, Ordered.insert]

/-- The number of results in some messages. -/
def promptResults (prompt : List Json) : Nat :=
  (prompt.map fun message => resultCount (blocksIn message)).sum

/-- A message after trimming, with `later` results in the messages after it. -/
def trimmedMessage (keep later : Nat) (message : Json) : Json :=
  match blocks? message with
  | some blocks => withBlocks (trimmedBlocks keep later blocks) message
  | none => message

/-- Messages after trimming, with `later` results in the messages after them. -/
def trimmedPrompt (keep later : Nat) : List Json → List Json
  | [] => []
  | message :: rest =>
      trimmedMessage keep (later + promptResults rest) message :: trimmedPrompt keep later rest

/-- The cuts in messages. -/
def promptCuts (keep later : Nat) : List Json → List (Nat × Nat)
  | [] => []
  | message :: rest =>
      blockCuts keep (later + promptResults rest) (blocksIn message) ++ promptCuts keep later rest

theorem promptResults_cons (message : Json) (rest : List Json) :
    promptResults (message :: rest) = resultCount (blocksIn message) + promptResults rest := by
  rw [promptResults, List.map_cons, List.sum_cons, promptResults]

theorem promptResults_append (prompt added : List Json) :
    promptResults (prompt ++ added) = promptResults prompt + promptResults added := by
  rw [promptResults, List.map_append, List.sum_append, promptResults, promptResults]

theorem blocks?_trimmedMessage (keep later : Nat) (message : Json) :
    blocks? (trimmedMessage keep later message)
      = (blocks? message).map (trimmedBlocks keep later) := by
  unfold trimmedMessage
  cases hblocks : blocks? message with
  | none => exact hblocks
  | some blocks => exact blocks?_withBlocks hblocks _

theorem blocksIn_trimmedMessage (keep later : Nat) (message : Json) :
    blocksIn (trimmedMessage keep later message) = trimmedBlocks keep later (blocksIn message) := by
  rw [blocksIn, blocks?_trimmedMessage, blocksIn]
  cases blocks? message <;> rfl

@[simp] theorem promptResults_trimmedPrompt (keep later : Nat) (prompt : List Json) :
    promptResults (trimmedPrompt keep later prompt) = promptResults prompt := by
  induction prompt with
  | nil => rfl
  | cons message rest ih =>
      rw [trimmedPrompt, promptResults_cons, promptResults_cons, ih, blocksIn_trimmedMessage,
        resultCount_trimmedBlocks]

theorem trimMessages_eq (keep : Nat) (prompt : List Json) :
    trimMessages keep prompt
      = (trimmedPrompt keep 0 prompt, promptResults prompt, promptCuts keep 0 prompt) := by
  induction prompt with
  | nil => rfl
  | cons message rest ih =>
      simp only [trimMessages, ih, trimBlocks_eq, trimmedPrompt, promptCuts, trimmedMessage,
        promptResults_cons, blocksIn, Nat.zero_add]
      cases blocks? message with
      | none => simp [resultCount, blockCuts]
      | some blocks => simp [Nat.add_comm]

theorem trimmedBlocks_cut (keep later : Nat) (blocks : List Json) :
    List.Forall₂ BlockCut blocks (trimmedBlocks keep later blocks) := by
  have hcut := trimBlocks_cut keep later blocks
  rwa [trimBlocks_eq] at hcut

theorem trimmedPrompt_cut (keep later : Nat) (prompt : List Json) :
    List.Forall₂ MessageCut prompt (trimmedPrompt keep later prompt) := by
  induction prompt with
  | nil => exact .nil
  | cons message rest ih =>
      refine .cons ?_ ih
      unfold trimmedMessage
      cases hblocks : blocks? message with
      | none => exact .same message
      | some blocks => exact .cut hblocks (trimmedBlocks_cut _ _ blocks)

theorem isSome_fields?_trimmedPrompt (keep later : Nat) {prompt : List Json}
    (h : ∀ message ∈ prompt, message.fields?.isSome = true) :
    ∀ message ∈ trimmedPrompt keep later prompt, message.fields?.isSome = true := by
  intro message hmessage
  obtain ⟨original, horiginal, hcut⟩ :=
    Pointwise.exists_of_mem (trimmedPrompt_cut keep later prompt) hmessage
  exact hcut.isSome_fields? (h original horiginal)

/-- A trimming is the decision for every block. -/
theorem trim_eq_ok (keep : Int) {prompt : List Json}
    (h : ∀ message ∈ prompt, message.fields?.isSome = true) :
    trim keep prompt
      = .ok ⟨trimmedPrompt keep.toNat 0 prompt, promptCuts keep.toNat 0 prompt⟩ := by
  unfold trim
  rw [if_pos (List.all_eq_true.2 h), trimMessages_eq]

theorem eq_of_trim_eq_ok {keep : Int} {prompt : List Json} {trimmed : Trimmed}
    (h : trim keep prompt = .ok trimmed) :
    trimmed.prompt = trimmedPrompt keep.toNat 0 prompt := by
  unfold trim at h
  split_ifs at h
  rw [trimMessages_eq, Except.ok.injEq] at h
  rw [← h]

theorem length_trimmedPrompt (keep later : Nat) (prompt : List Json) :
    (trimmedPrompt keep later prompt).length = prompt.length := by
  induction prompt with
  | nil => rfl
  | cons message rest ih => rw [trimmedPrompt, List.length_cons, List.length_cons, ih]

theorem trimmedPrompt_append (keep later : Nat) (prompt added : List Json) :
    trimmedPrompt keep later (prompt ++ added)
      = trimmedPrompt keep (later + promptResults added) prompt
        ++ trimmedPrompt keep later added := by
  induction prompt with
  | nil => rfl
  | cons message rest ih =>
      rw [List.cons_append, trimmedPrompt, ih, trimmedPrompt, List.cons_append,
        promptResults_append]
      congr 2
      omega

theorem promptCuts_append (keep later : Nat) (prompt added : List Json) :
    promptCuts keep later (prompt ++ added)
      = promptCuts keep (later + promptResults added) prompt ++ promptCuts keep later added := by
  induction prompt with
  | nil => rfl
  | cons message rest ih =>
      rw [List.cons_append, promptCuts, ih, promptCuts, List.append_assoc, promptResults_append]
      congr 2
      omega

/-! ## Trimming what was trimmed -/

/-- All result texts of a prompt have fewer than `limit` characters. -/
def ResultsBelow (limit : Nat) (prompt : List Json) : Prop :=
  ∀ message ∈ prompt, ∀ block ∈ blocksIn message, Below limit block

instance (limit : Nat) (prompt : List Json) : Decidable (ResultsBelow limit prompt) :=
  inferInstanceAs (Decidable (∀ message ∈ prompt, ∀ block ∈ blocksIn message, Below limit block))

theorem ResultsBelow.mono {limit limit' : Nat} {prompt : List Json} (h : ResultsBelow limit prompt)
    (hle : limit ≤ limit') : ResultsBelow limit' prompt := by
  intro message hmessage block hblock text htext
  exact (h message hmessage block hblock text htext).trans_le hle

theorem trimmedMessage_again (keep : Nat) {later later' : Nat} (hle : later ≤ later')
    {message : Json}
    (hbelow : ∀ block ∈ blocksIn message, Below (2 ^ 63) block) :
    trimmedMessage keep later' (trimmedMessage keep later message)
      = trimmedMessage keep later' message := by
  cases hblocks : blocks? message with
  | none => simp only [trimmedMessage, hblocks]
  | some blocks =>
      have hin : blocksIn message = blocks := by rw [blocksIn, hblocks, Option.getD_some]
      have hagain := (trimmedBlocks_again keep hle (hin ▸ hbelow)).1
      simp only [trimmedMessage, hblocks, blocks?_withBlocks hblocks, hagain,
        withBlocks_withBlocks]

theorem trimmedPrompt_again (keep : Nat) {later later' : Nat} (hle : later ≤ later')
    {prompt : List Json}
    (hbelow : ResultsBelow (2 ^ 63) prompt) :
    trimmedPrompt keep later' (trimmedPrompt keep later prompt) = trimmedPrompt keep later' prompt ∧
      (promptCuts keep later prompt ++ promptCuts keep later' (trimmedPrompt keep later prompt)).Perm
        (promptCuts keep later' prompt) := by
  induction prompt with
  | nil => exact ⟨rfl, .nil⟩
  | cons message rest ih =>
      obtain ⟨hrest, hcuts⟩ := ih fun other hother => hbelow other (List.mem_cons_of_mem _ hother)
      have hmessage := hbelow message List.mem_cons_self
      have hle' := Nat.add_le_add_right hle (promptResults rest)
      constructor
      · rw [trimmedPrompt, trimmedPrompt, promptResults_trimmedPrompt, hrest,
          trimmedMessage_again keep hle' hmessage, trimmedPrompt]
      · rw [trimmedPrompt, promptCuts, promptCuts, promptCuts, promptResults_trimmedPrompt,
          blocksIn_trimmedMessage]
        exact perm_of_split (trimmedBlocks_again keep hle' hmessage).2 hcuts

/-! ## What is left at a place -/

/-- The block at a place of a prompt. -/
def blockAt (prompt : List Json) (i j : Nat) : Option Json :=
  (prompt[i]?.bind blocks?).bind fun blocks => blocks[j]?

/-- The number of results after a place of a prompt. -/
def resultsAfter (prompt : List Json) (i j : Nat) : Nat :=
  resultCount ((blocksIn (prompt[i]?.getD .null)).drop (j + 1)) + promptResults (prompt.drop (i + 1))

theorem blockAt_trimmedPrompt (keep later : Nat) (prompt : List Json) (i j : Nat) :
    blockAt (trimmedPrompt keep later prompt) i j
      = (blockAt prompt i j).map (shown keep (later + resultsAfter prompt i j)) := by
  induction prompt generalizing i with
  | nil => rfl
  | cons message rest ih =>
      cases i with
      | succ i =>
          have hrest := ih i
          simpa only [blockAt, resultsAfter, trimmedPrompt, List.getElem?_cons_succ,
            List.drop_succ_cons] using hrest
      | zero =>
          simp only [blockAt, resultsAfter, trimmedPrompt, List.getElem?_cons_zero,
            Option.bind_some, Option.getD_some, List.drop_succ_cons, List.drop_zero,
            blocks?_trimmedMessage, blocksIn]
          cases blocks? message with
          | none => rfl
          | some blocks =>
              simp only [Option.map_some, Option.bind_some, Option.getD_some,
                getElem?_trimmedBlocks]
              congr 2
              omega

theorem blockAt_append_left {prompt : List Json} {i : Nat} (h : i < prompt.length)
    (added : List Json) (j : Nat) : blockAt (prompt ++ added) i j = blockAt prompt i j := by
  rw [blockAt, blockAt, List.getElem?_append_left h]

theorem blockAt_append_right {prompt : List Json} {i : Nat} (h : prompt.length ≤ i)
    (added : List Json) (j : Nat) :
    blockAt (prompt ++ added) i j = blockAt added (i - prompt.length) j := by
  rw [blockAt, blockAt, List.getElem?_append_right h]

theorem resultsAfter_append {prompt : List Json} {i : Nat} (h : i < prompt.length)
    (added : List Json) (j : Nat) :
    resultsAfter (prompt ++ added) i j = resultsAfter prompt i j + promptResults added := by
  rw [resultsAfter, resultsAfter, List.getElem?_append_left h,
    List.drop_append_of_le_length (by omega), promptResults_append, Nat.add_assoc]

theorem lt_length_of_blockAt {prompt : List Json} {i j : Nat} {block : Json}
    (h : blockAt prompt i j = some block) : i < prompt.length := by
  by_contra hlength
  rw [blockAt, List.getElem?_eq_none (not_lt.1 hlength)] at h
  exact absurd h (by simp)

end Parley.Prompt.Rounds
