import Parley.Proofs.Prompt.Replay
import Mathlib.Algebra.Order.Floor.Ring
set_option autoImplicit false

/-! # Trimming in place

A prompt can be trimmed where it stands, in two phases. A scan from its end collects the results,
the newest first, each with its place and the length of its text; then all but the `keep` newest
are looked at once more, and those with a long text are overwritten (`trimInPlace`). Nothing is
written before the scan is over, so a prompt that is refused stays as it was.

Both phases come down to the decision for every block that `trim` makes as well. The results that
are left after the `keep` newest are those that have at least `keep` results after them, so what is
overwritten can be told block by block (`due`, `long_drop_spotsFrom`), and writing it leaves what
`trim` leaves (`writeAll_dueFrom`). -/

namespace Parley.Prompt.Rounds

/-! ## The scan -/

/-- A result in a prompt: the places of its message and of its block, and the length of its text. -/
structure Spot where
  message : Nat
  block : Nat
  size : Nat
deriving DecidableEq

/-- The length of the content of a result; a content that is not a text has none. -/
def textLength (block : Json) : Nat :=
  match block.field? "content" with
  | some (.string text) => text.length
  | _ => 0

/-- The results among the blocks of message `i` from block `j` on, the last one first. -/
def spotsIn (i : Nat) : Nat → List Json → List Spot
  | _, [] => []
  | j, block :: rest =>
      spotsIn i (j + 1) rest ++ if isResult block then [⟨i, j, textLength block⟩] else []

/-- The results in the messages from message `i` on, the newest first. A message that is not an
    object is refused when the scan comes to it. -/
def collect : Nat → List Json → Except Fault (List Spot)
  | _, [] => .ok []
  | i, message :: rest => do
      let later ← collect (i + 1) rest
      match message.fields? with
      | some _ => return later ++ spotsIn i 0 (blocksIn message)
      | none => .error .notAnObject

/-! ## The writes -/

/-- Put a placeholder in place of the content of a result. -/
def write (prompt : List Json) (spot : Spot) : List Json :=
  prompt.modify spot.message fun message =>
    withBlocks ((blocksIn message).modify spot.block (withText (placeholder spot.size))) message

/-- Overwrite the long ones among some results, count them and add up the tokens saved. If that
    fails, what was written stays written. -/
def overwrite : List Spot → List Json → Except Fault (Nat × Int) × List Json
  | [], prompt => (.ok (0, 0), prompt)
  | spot :: rest, prompt =>
      if spot.size ≤ keptLength then overwrite rest prompt
      else
        match Budget.saved spot.size (placeholder spot.size).length with
        | .error fault => (.error fault, write prompt spot)
        | .ok own =>
            let (counts, final) := overwrite rest (write prompt spot)
            (counts.map fun (count, tokens) => (count + 1, own + tokens), final)

/-- Trim a prompt where it stands. The answer is how many results gave way and how many tokens that
    saved, with the prompt that its owner is left with. -/
def trimInPlace (keep : Int) (prompt : List Json) : Except Fault (Nat × Int) × List Json :=
  match collect 0 prompt with
  | .error fault => (.error fault, prompt)
  | .ok spots => overwrite (spots.drop (max 0 keep).toNat) prompt

/-- The lengths before and after. -/
def Spot.cut (spot : Spot) : Nat × Nat :=
  (spot.size, (placeholder spot.size).length)

/-- The tokens saved when a result gives way. -/
def Spot.tokens (spot : Spot) : Int :=
  cutTokens spot.cut

/-- The results with a long text. -/
def long (spots : List Spot) : List Spot :=
  spots.filter fun spot => decide (keptLength < spot.size)

/-- Write placeholders, one after the other. -/
def writeAll (spots : List Spot) (prompt : List Json) : List Json :=
  spots.foldl write prompt

/-- Overwriting is writing at the long results, as long as the tokens can be counted. -/
theorem overwrite_eq {spots : List Spot} (prompt : List Json)
    (h : ∀ spot ∈ long spots, spot.size < 2 ^ 53) :
    overwrite spots prompt
      = (.ok ((long spots).length, ((long spots).map Spot.tokens).sum),
          writeAll (long spots) prompt) := by
  induction spots generalizing prompt with
  | nil => rfl
  | cons spot rest ih =>
      by_cases hlong : keptLength < spot.size
      · have hcons : long (spot :: rest) = spot :: long rest :=
          List.filter_cons_of_pos (by simpa using hlong)
        rw [hcons] at h ⊢
        have hsize := h spot List.mem_cons_self
        have hshort : (placeholder spot.size).length ≤ keptLength :=
          length_placeholder_le (by omega)
        have hsaved : Budget.saved spot.size (placeholder spot.size).length = .ok spot.tokens :=
          Budget.saved_eq_ceil (by omega)
        have hrest := ih (write prompt spot)
          fun other hother => h other (List.mem_cons_of_mem _ hother)
        rw [overwrite, if_neg (not_le.2 hlong), hsaved]
        simp only [hrest, Except.map, List.length_cons, List.map_cons, List.sum_cons, writeAll,
          List.foldl_cons]
      · have hcons : long (spot :: rest) = long rest :=
          List.filter_cons_of_neg (by simpa using hlong)
        rw [hcons] at h ⊢
        rw [overwrite, if_pos (not_lt.1 hlong), ih prompt h]

/-! ## What is due -/

/-- The results that give way among the blocks of message `i` from block `j` on, the last one first,
    with `later` results in the messages after it. -/
def dueIn (keep later i : Nat) : Nat → List Json → List Spot
  | _, [] => []
  | j, block :: rest =>
      dueIn keep later i (j + 1) rest
        ++ (longText? keep (later + resultCount rest) block).toList.map
          fun text => ⟨i, j, text.length⟩

/-- The results that give way in the messages from message `i` on, the newest first. -/
def dueFrom (keep : Nat) : Nat → List Json → List Spot
  | _, [] => []
  | i, message :: rest =>
      dueFrom keep (i + 1) rest ++ dueIn keep (promptResults rest) i 0 (blocksIn message)

/-- The results of a prompt that give way. -/
def due (keep : Int) (prompt : List Json) : List Spot :=
  dueFrom keep.toNat 0 prompt

/-! ### The scan finds what is due -/

/-- The results in the messages from message `i` on, where all messages are objects. -/
def spotsFrom : Nat → List Json → List Spot
  | _, [] => []
  | i, message :: rest => spotsFrom (i + 1) rest ++ spotsIn i 0 (blocksIn message)

theorem collect_eq_ok (i : Nat) {prompt : List Json}
    (h : ∀ message ∈ prompt, message.fields?.isSome = true) :
    collect i prompt = .ok (spotsFrom i prompt) := by
  induction prompt generalizing i with
  | nil => rfl
  | cons message rest ih =>
      obtain ⟨fields, hfields⟩ := Option.isSome_iff_exists.1 (h message List.mem_cons_self)
      have hrest := ih (i + 1) fun other hother => h other (List.mem_cons_of_mem _ hother)
      simp only [collect, hrest, hfields, bind, Except.bind, pure, Except.pure, spotsFrom]

theorem collect_eq_error (i : Nat) {prompt : List Json}
    (h : ∃ message ∈ prompt, message.fields? = none) :
    collect i prompt = .error .notAnObject := by
  induction prompt generalizing i with
  | nil => simp at h
  | cons message rest ih =>
      by_cases hrest : ∃ other ∈ rest, other.fields? = none
      · simp only [collect, ih (i + 1) hrest, bind, Except.bind]
      · have hobjects : ∀ other ∈ rest, other.fields?.isSome = true := by
          intro other hother
          by_contra hnone
          exact hrest ⟨other, hother, Option.not_isSome_iff_eq_none.1 hnone⟩
        -- the scan gets through the later messages and fails at this one
        have hmessage : message.fields? = none := by
          obtain ⟨bad, hbad, hnone⟩ := h
          rcases List.mem_cons.1 hbad with rfl | hlater
          · exact hnone
          · exact absurd ⟨bad, hlater, hnone⟩ hrest
        simp only [collect, collect_eq_ok (i + 1) hobjects, hmessage, bind, Except.bind]

@[simp] theorem length_spotsIn (i j : Nat) (blocks : List Json) :
    (spotsIn i j blocks).length = resultCount blocks := by
  induction blocks generalizing j with
  | nil => rfl
  | cons block rest ih =>
      rw [spotsIn, List.length_append, ih, resultCount_cons]
      split_ifs <;> rfl

@[simp] theorem length_spotsFrom (i : Nat) (prompt : List Json) :
    (spotsFrom i prompt).length = promptResults prompt := by
  induction prompt generalizing i with
  | nil => rfl
  | cons message rest ih =>
      rw [spotsFrom, List.length_append, ih, length_spotsIn, promptResults_cons, Nat.add_comm]

theorem long_append (first second : List Spot) :
    long (first ++ second) = long first ++ long second :=
  List.filter_append ..

theorem textLength_eq {block : Json} (h : isResult block = true) :
    textLength block = ((resultText? block).map String.length).getD 0 := by
  rw [textLength, resultText?, if_pos h]
  cases block.field? "content" with
  | none => rfl
  | some content => cases content <;> rfl

/-- A result with `after` results after it is left after the `keep` newest, and is long, exactly if
    it gives way. -/
theorem long_drop_singleton (keep after i j : Nat) (block : Json) :
    long ((if isResult block then [⟨i, j, textLength block⟩] else []).drop (keep - after))
      = (longText? keep after block).toList.map fun text => ⟨i, j, text.length⟩ := by
  by_cases hresult : isResult block = true
  · rw [if_pos hresult, longText?]
    by_cases hkeep : keep ≤ after
    · rw [if_pos hkeep, Nat.sub_eq_zero_of_le hkeep, List.drop_zero, textLength_eq hresult]
      cases resultText? block with
      | none => simp [long]
      | some text =>
          by_cases hlong : keptLength < text.length <;>
            simp [long, Option.filter_some, hlong]
    · rw [if_neg hkeep, List.drop_eq_nil_of_le (by simp; omega)]
      rfl
  · rw [if_neg hresult, List.drop_nil, longText?, resultText?, if_neg hresult]
    simp [long]

theorem long_drop_spotsIn (keep later i j : Nat) (blocks : List Json) :
    long ((spotsIn i j blocks).drop (keep - later)) = dueIn keep later i j blocks := by
  induction blocks generalizing j with
  | nil => simp [spotsIn, dueIn, long]
  | cons block rest ih =>
      rw [spotsIn, List.drop_append, length_spotsIn, long_append, ih, Nat.sub_sub,
        long_drop_singleton, dueIn]

/-- The long results that are left after the `keep` newest are those that give way. -/
theorem long_drop_spotsFrom (keep i : Nat) (prompt : List Json) :
    long ((spotsFrom i prompt).drop keep) = dueFrom keep i prompt := by
  induction prompt generalizing i with
  | nil => simp [spotsFrom, dueFrom, long]
  | cons message rest ih =>
      rw [spotsFrom, List.drop_append, length_spotsFrom, long_append, ih, long_drop_spotsIn,
        dueFrom]

/-! ### Places -/

theorem mem_dueIn {keep later i j : Nat} {blocks : List Json} {spot : Spot} :
    spot ∈ dueIn keep later i j blocks ↔ ∃ b block text, blocks[b]? = some block ∧
      longText? keep (later + resultCount (blocks.drop (b + 1))) block = some text ∧
      spot = ⟨i, j + b, text.length⟩ := by
  induction blocks generalizing j with
  | nil => simp [dueIn]
  | cons first rest ih =>
      rw [dueIn, List.mem_append, ih]
      constructor
      · rintro (⟨b, block, text, hblock, hlong, rfl⟩ | hown)
        · exact ⟨b + 1, block, text, hblock, hlong, by rw [Nat.add_assoc, Nat.add_comm 1 b]⟩
        · obtain ⟨text, htext, rfl⟩ := List.mem_map.1 hown
          exact ⟨0, first, text, rfl, Option.mem_toList.1 htext, rfl⟩
      · rintro ⟨b, block, text, hblock, hlong, rfl⟩
        cases b with
        | zero =>
            rw [List.getElem?_cons_zero, Option.some.injEq] at hblock
            rw [← hblock] at hlong
            exact .inr (List.mem_map.2 ⟨text, Option.mem_toList.2 hlong, rfl⟩)
        | succ b =>
            exact .inl ⟨b, block, text, hblock, hlong, by rw [Nat.add_assoc, Nat.add_comm 1 b]⟩

theorem blockAt_cons_zero (message : Json) (rest : List Json) (j : Nat) :
    blockAt (message :: rest) 0 j = (blocksIn message)[j]? := by
  rw [blockAt, List.getElem?_cons_zero, Option.bind_some, blocksIn]
  cases blocks? message <;> rfl

theorem resultsAfter_cons_zero (message : Json) (rest : List Json) (j : Nat) :
    resultsAfter (message :: rest) 0 j
      = promptResults rest + resultCount ((blocksIn message).drop (j + 1)) :=
  Nat.add_comm _ _

theorem mem_dueFrom {keep i : Nat} {prompt : List Json} {spot : Spot} :
    spot ∈ dueFrom keep i prompt ↔ ∃ a b block text, blockAt prompt a b = some block ∧
      longText? keep (resultsAfter prompt a b) block = some text ∧
      spot = ⟨i + a, b, text.length⟩ := by
  induction prompt generalizing i with
  | nil => simp [dueFrom, blockAt]
  | cons message rest ih =>
      rw [dueFrom, List.mem_append, ih, mem_dueIn]
      constructor
      · rintro (⟨a, b, block, text, hblock, hlong, rfl⟩ | ⟨b, block, text, hblock, hlong, rfl⟩)
        · exact ⟨a + 1, b, block, text, hblock, hlong, by rw [Nat.add_assoc, Nat.add_comm 1 a]⟩
        · refine ⟨0, b, block, text, ?_, ?_, by rw [Nat.zero_add]; rfl⟩
          · rw [blockAt_cons_zero, hblock]
          · rw [resultsAfter_cons_zero, hlong]
      · rintro ⟨a, b, block, text, hblock, hlong, rfl⟩
        cases a with
        | zero =>
            rw [blockAt_cons_zero] at hblock
            rw [resultsAfter_cons_zero] at hlong
            exact .inr ⟨b, block, text, hblock, hlong, by rw [Nat.zero_add]; rfl⟩
        | succ a =>
            exact .inl ⟨a, b, block, text, hblock, hlong, by rw [Nat.add_assoc, Nat.add_comm 1 a]⟩

/-- A result that stands further back in the prompt, in a later message or in a later block of the
    same message. -/
def Spot.Newer (newer older : Spot) : Prop :=
  older.message < newer.message ∨ older.message = newer.message ∧ older.block < newer.block

theorem pairwise_dueIn (keep later i j : Nat) (blocks : List Json) :
    (dueIn keep later i j blocks).Pairwise Spot.Newer := by
  induction blocks generalizing j with
  | nil => exact .nil
  | cons first rest ih =>
      refine List.pairwise_append.2 ⟨ih (j + 1), ?_, ?_⟩
      · cases longText? keep (later + resultCount rest) first <;> simp
      · intro newer hnewer older holder
        obtain ⟨b, _, text, -, -, rfl⟩ := mem_dueIn.1 hnewer
        obtain ⟨_, -, rfl⟩ := List.mem_map.1 holder
        exact .inr ⟨rfl, by show j < j + 1 + b; omega⟩

theorem pairwise_dueFrom (keep i : Nat) (prompt : List Json) :
    (dueFrom keep i prompt).Pairwise Spot.Newer := by
  induction prompt generalizing i with
  | nil => exact .nil
  | cons message rest ih =>
      refine List.pairwise_append.2 ⟨ih (i + 1), pairwise_dueIn _ _ _ _ _, ?_⟩
      intro newer hnewer older holder
      obtain ⟨a, b, _, text, -, -, rfl⟩ := mem_dueFrom.1 hnewer
      obtain ⟨_, _, _, -, -, rfl⟩ := mem_dueIn.1 holder
      exact .inl (by show i < i + 1 + a; omega)

/-! ### Cuts -/

theorem blockCuts_eq (keep later i j : Nat) (blocks : List Json) :
    blockCuts keep later blocks = ((dueIn keep later i j blocks).map Spot.cut).reverse := by
  induction blocks generalizing j with
  | nil => rfl
  | cons block rest ih =>
      rw [blockCuts, ih (j + 1), dueIn, List.map_append, List.reverse_append, cutsOf]
      cases longText? keep (later + resultCount rest) block <;> rfl

/-- The cuts are those of what is due, the oldest first. -/
theorem promptCuts_eq (keep i : Nat) (prompt : List Json) :
    promptCuts keep 0 prompt = ((dueFrom keep i prompt).map Spot.cut).reverse := by
  induction prompt generalizing i with
  | nil => rfl
  | cons message rest ih =>
      rw [promptCuts, ih (i + 1), Nat.zero_add, blockCuts_eq keep (promptResults rest) i 0, dueFrom,
        List.map_append, List.reverse_append]

/-! ## Writing what is due -/

theorem modify_append_cons {α : Type} (front : List α) (a : α) (rest : List α) (f : α → α) :
    (front ++ a :: rest).modify front.length f = front ++ f a :: rest := by
  induction front with
  | nil => rfl
  | cons b front ih => rw [List.cons_append, List.length_cons, List.modify_succ_cons, ih]; rfl

theorem writeAll_append (first second : List Spot) (prompt : List Json) :
    writeAll (first ++ second) prompt = writeAll second (writeAll first prompt) :=
  List.foldl_append ..

/-- Writing at a block of a message that holds blocks. -/
theorem write_block {front rest own later : List Json} {message block : Json} {blocks : List Json}
    (h : blocks? message = some blocks) (size : Nat) :
    write (front ++ withBlocks (own ++ block :: later) message :: rest)
        ⟨front.length, own.length, size⟩
      = front ++ withBlocks (own ++ withText (placeholder size) block :: later) message :: rest := by
  rw [write, modify_append_cons, blocksIn, blocks?_withBlocks h, Option.getD_some,
    modify_append_cons, withBlocks_withBlocks]

theorem writeAll_dueIn (keep later : Nat) (front rest : List Json) {message : Json}
    {blocks : List Json} (h : blocks? message = some blocks) (own after : List Json) :
    writeAll (dueIn keep later front.length own.length after)
        (front ++ withBlocks (own ++ after) message :: rest)
      = front ++ withBlocks (own ++ trimmedBlocks keep later after) message :: rest := by
  -- the last blocks are written first, with those before them still as they were
  induction after generalizing own with
  | nil => rfl
  | cons block after ih =>
      have hlater := ih (own ++ [block])
      simp only [List.length_append, List.length_singleton, List.append_assoc,
        List.singleton_append] at hlater
      rw [dueIn, writeAll_append, hlater, trimmedBlocks, shown]
      cases longText? keep (later + resultCount after) block with
      | none => rfl
      | some text => exact write_block h text.length

/-- Writing what is due leaves the trimmed prompt. -/
theorem writeAll_dueFrom (keep : Nat) (front prompt : List Json) :
    writeAll (dueFrom keep front.length prompt) (front ++ prompt)
      = front ++ trimmedPrompt keep 0 prompt := by
  induction prompt generalizing front with
  | nil => rfl
  | cons message rest ih =>
      have hlater := ih (front ++ [message])
      simp only [List.length_append, List.length_singleton, List.append_assoc,
        List.singleton_append] at hlater
      rw [dueFrom, writeAll_append, hlater, trimmedPrompt, Nat.zero_add, trimmedMessage, blocksIn]
      cases hblocks : blocks? message with
      | none => rfl
      | some blocks =>
          have hown := writeAll_dueIn keep (promptResults rest) front (trimmedPrompt keep 0 rest)
            hblocks [] blocks
          rw [List.nil_append, withBlocks_eq_self hblocks] at hown
          exact hown

/-! ## The effect of a trimming -/

/-- A result gives way if its content is a text of more than 200 characters and at least `keep`
    results come after it, whatever their contents are. -/
def GivesWay (keep : Int) (prompt : List Json) (spot : Spot) : Prop :=
  ∃ block text, blockAt prompt spot.message spot.block = some block ∧ isResult block = true ∧
    block.field? "content" = some (.string text) ∧ text.length = spot.size ∧
    keptLength < spot.size ∧ max 0 keep ≤ resultsAfter prompt spot.message spot.block

/-- The placeholder for a text has taken the place of the text. -/
def Overwritten (before after : List Json) (spot : Spot) : Prop :=
  ∃ block, blockAt before spot.message spot.block = some block ∧
    blockAt after spot.message spot.block = some (withText (placeholder spot.size) block)

variable {keep : Int} {prompt : List Json} {spot : Spot}

theorem mem_due_iff : spot ∈ due keep prompt ↔ ∃ block text,
    blockAt prompt spot.message spot.block = some block ∧
    longText? keep.toNat (resultsAfter prompt spot.message spot.block) block = some text ∧
    text.length = spot.size := by
  rw [due, mem_dueFrom]
  constructor
  · rintro ⟨a, b, block, text, hblock, hlong, rfl⟩
    rw [Nat.zero_add]
    exact ⟨block, text, hblock, hlong, rfl⟩
  · rintro ⟨block, text, hblock, hlong, hsize⟩
    exact ⟨spot.message, spot.block, block, text, hblock, hlong, by rw [Nat.zero_add, hsize]⟩

/-- What is due is what gives way. -/
theorem mem_due : spot ∈ due keep prompt ↔ GivesWay keep prompt spot := by
  have hkeep : ∀ n : Nat, keep.toNat ≤ n ↔ max 0 keep ≤ n := fun n => by omega
  rw [mem_due_iff]
  constructor
  · rintro ⟨block, text, hblock, htext, hsize⟩
    obtain ⟨hafter, hresult, hlong⟩ := longText?_eq_some_iff.1 htext
    obtain ⟨hisResult, hcontent⟩ := resultText?_eq_some_iff.1 hresult
    exact ⟨block, text, hblock, hisResult, hcontent, hsize, hsize ▸ hlong, (hkeep _).1 hafter⟩
  · rintro ⟨block, text, hblock, hisResult, hcontent, hsize, hlong, hafter⟩
    have hresult : resultText? block = some text :=
      resultText?_eq_some_iff.2 ⟨hisResult, hcontent⟩
    exact ⟨block, text, hblock,
      longText?_eq_some_iff.2 ⟨(hkeep _).2 hafter, hresult, hsize ▸ hlong⟩, hsize⟩

theorem overwritten_of_mem_due (h : spot ∈ due keep prompt) :
    Overwritten prompt (trimmedPrompt keep.toNat 0 prompt) spot := by
  obtain ⟨block, text, hblock, htext, hsize⟩ := mem_due_iff.1 h
  refine ⟨block, hblock, ?_⟩
  rw [blockAt_trimmedPrompt, hblock, Option.map_some, Nat.zero_add, shown, htext, ← hsize]

theorem blockAt_of_not_mem_due {i j : Nat} (h : ∀ size, ⟨i, j, size⟩ ∉ due keep prompt) :
    blockAt (trimmedPrompt keep.toNat 0 prompt) i j = blockAt prompt i j := by
  rw [blockAt_trimmedPrompt, Nat.zero_add]
  cases hblock : blockAt prompt i j with
  | none => rfl
  | some block =>
      rw [Option.map_some, shown]
      cases htext : longText? keep.toNat (resultsAfter prompt i j) block with
      | none => rfl
      | some text => exact absurd (mem_due_iff.2 ⟨block, text, hblock, htext, rfl⟩) (h text.length)

theorem size_lt_of_mem_due {limit : Nat} (hbelow : ResultsBelow limit prompt)
    (h : spot ∈ due keep prompt) : spot.size < limit := by
  obtain ⟨block, text, hblock, htext, hsize⟩ := mem_due_iff.1 h
  obtain ⟨-, hresult, -⟩ := longText?_eq_some_iff.1 htext
  obtain ⟨blocks, hblocks, hget⟩ := Option.bind_eq_some_iff.1 hblock
  obtain ⟨message, hmessage, hin⟩ := Option.bind_eq_some_iff.1 hblocks
  rw [← hsize]
  refine hbelow message (List.mem_of_getElem? hmessage) block ?_ text hresult
  rw [blocksIn, hin, Option.getD_some]
  exact List.mem_of_getElem? hget

/-- What gives way is longer than its placeholder, so that every trimming saves tokens. -/
theorem tokens_pos (hbelow : ResultsBelow (2 ^ 63) prompt) (h : spot ∈ due keep prompt) :
    0 < spot.tokens := by
  obtain ⟨_, _, -, -, -, -, hlong, -⟩ := mem_due.1 h
  have hshort : (placeholder spot.size).length ≤ keptLength :=
    length_placeholder_le (size_lt_of_mem_due hbelow h)
  have hsaved : (0 : Int) < (spot.size : Int) - ((placeholder spot.size).length : Int) := by omega
  exact Int.ceil_pos.2 (div_pos (Int.cast_pos.2 hsaved) (by norm_num))

theorem trimInPlace_eq_error (keep : Int) (h : ∃ message ∈ prompt, message.fields? = none) :
    trimInPlace keep prompt = (.error .notAnObject, prompt) := by
  rw [trimInPlace, collect_eq_error 0 h]

theorem trimInPlace_eq_ok (keep : Int) (hobjects : ∀ message ∈ prompt, message.fields?.isSome = true)
    (hbelow : ResultsBelow (2 ^ 53) prompt) :
    trimInPlace keep prompt
      = (.ok ((due keep prompt).length, ((due keep prompt).map Spot.tokens).sum),
          trimmedPrompt keep.toNat 0 prompt) := by
  have hkeep : (max 0 keep).toNat = keep.toNat := by omega
  have hdue : long ((spotsFrom 0 prompt).drop (max 0 keep).toNat) = due keep prompt := by
    rw [hkeep, long_drop_spotsFrom, due]
  have hsizes : ∀ spot ∈ due keep prompt, spot.size < 2 ^ 53 :=
    fun spot hspot => size_lt_of_mem_due hbelow hspot
  have hwritten : writeAll (due keep prompt) prompt = trimmedPrompt keep.toNat 0 prompt :=
    writeAll_dueFrom keep.toNat [] prompt
  rw [← hdue] at hsizes
  rw [trimInPlace, collect_eq_ok 0 hobjects]
  simp only [overwrite_eq prompt hsizes, hdue, hwritten]

/-- **What a trimming does, block by block.** A prompt that holds anything but objects is refused,
    and its owner is left with what was there. In any other prompt a result is overwritten exactly
    if it gives way: it is a text of more than 200 characters and at least `keep` results, of
    whatever content, come after it. Its placeholder states the length of the text, and nothing
    else changes. The results that were overwritten are counted, and the tokens saved are the sum
    of their exact shares, none of which is zero. Trimming a prompt where it stands comes to the
    same prompt and the same counts. -/
theorem trim_effect (keep : Int) (prompt : List Json) :
    ((∃ message ∈ prompt, message.fields? = none) →
      trim keep prompt = .error .notAnObject ∧
        trimInPlace keep prompt = (.error .notAnObject, prompt)) ∧
    ((∀ message ∈ prompt, message.fields?.isSome = true) →
      ∃ done, trim keep prompt = .ok done ∧
        List.Forall₂ MessageCut prompt done.prompt ∧
        (∀ spot, spot ∈ due keep prompt ↔ GivesWay keep prompt spot) ∧
        (due keep prompt).Pairwise Spot.Newer ∧
        (∀ spot ∈ due keep prompt, Overwritten prompt done.prompt spot) ∧
        (∀ i j, (∀ size, ⟨i, j, size⟩ ∉ due keep prompt) →
          blockAt done.prompt i j = blockAt prompt i j) ∧
        done.cuts.length = (due keep prompt).length ∧
        (ResultsBelow (2 ^ 53) prompt →
          (∀ spot ∈ due keep prompt, 0 < spot.tokens) ∧
          tokensSaved done.cuts = .ok ((due keep prompt).map Spot.tokens).sum ∧
          trimInPlace keep prompt
            = (.ok ((due keep prompt).length, ((due keep prompt).map Spot.tokens).sum),
                done.prompt))) := by
  constructor
  · intro hbad
    refine ⟨?_, trimInPlace_eq_error keep hbad⟩
    obtain ⟨message, hmessage, hnone⟩ := hbad
    unfold trim
    rw [if_neg]
    intro hall
    have hsome := List.all_eq_true.1 hall message hmessage
    rw [hnone] at hsome
    exact absurd hsome (by simp)
  · intro hobjects
    have htrim := trim_eq_ok keep hobjects
    have hcuts : promptCuts keep.toNat 0 prompt = ((due keep prompt).map Spot.cut).reverse :=
      promptCuts_eq keep.toNat 0 prompt
    refine ⟨_, htrim, cut_of_trim htrim, fun spot => mem_due, pairwise_dueFrom _ _ _,
      fun spot => overwritten_of_mem_due, fun i j => blockAt_of_not_mem_due, ?_, ?_⟩
    · show (promptCuts keep.toNat 0 prompt).length = (due keep prompt).length
      rw [hcuts, List.length_reverse, List.length_map]
    · intro hbelow
      refine ⟨fun spot => tokens_pos (hbelow.mono (by omega)), ?_,
        trimInPlace_eq_ok keep hobjects hbelow⟩
      show tokensSaved (promptCuts keep.toNat 0 prompt) = _
      rw [tokensSaved_eq fun cut hcut => bounds_of_mem_promptCuts (by omega) hbelow hcut, hcuts,
        List.map_reverse, List.sum_reverse, List.map_map]
      rfl

/-- A text of some length. -/
def filler (size : Nat) : String :=
  String.ofList (List.replicate size 'x')

@[simp] theorem length_filler (size : Nat) : (filler size).length = size := by
  simp [filler]

/-- A prompt with four results. The content of one is not a text, and another one stands in a
    message of the assistant, where it is not looked for. -/
def mixed (older newer : Nat) : List Json :=
  [entry "user" (.string "hello"),
    entry "user" (.array [toolResultBlock (.string "a") (.string (filler older)) false,
      .string "note", toolResultBlock (.string "b") .null false]),
    entry "assistant" (.array [toolResultBlock (.string "c") (.string (filler newer)) false]),
    entry "user" (.array [toolResultBlock (.string "d") (.string (filler newer)) false])]

theorem isSome_fields?_mixed (older newer : Nat) :
    ∀ message ∈ mixed older newer, message.fields?.isSome = true := by
  simp [mixed, entry, Json.fields?]

theorem resultsBelow_mixed {limit older newer : Nat} (holder : older < limit)
    (hnewer : newer < limit) : ResultsBelow limit (mixed older newer) := by
  simp [ResultsBelow, Below, mixed, blocksIn, blocks?, entry, Json.field?, Ordered.find?,
    Json.items?, Json.text?, resultText?, isResult, toolResultBlock, holder, hnewer]

/-- The content that is not a text counts as one of the newest results. -/
theorem due_mixed {older newer : Nat} (holder : keptLength < older) (hnewer : keptLength < newer) :
    due 2 (mixed older newer) = [⟨1, 0, older⟩] ∧
      due (-1) (mixed older newer) = [⟨3, 0, newer⟩, ⟨1, 0, older⟩] := by
  simp [due, dueFrom, dueIn, mixed, longText?, resultCount, promptResults, blocksIn, blocks?,
    entry, Json.field?, Ordered.find?, Json.items?, Json.text?, resultText?, isResult,
    toolResultBlock, holder, hnewer, Option.filter_some]

/-- A prompt with a message that is a text is refused. Of the four results one gives way if two are
    kept, and two give way if the number to keep is negative. -/
theorem trim_effect_mixed :
    (∃ message ∈ (.string "hello" :: mixed 240 201 : List Json), message.fields? = none) ∧
      trim 0 (.string "hello" :: mixed 240 201) = .error .notAnObject ∧
      trimInPlace 0 (.string "hello" :: mixed 240 201)
        = (.error .notAnObject, .string "hello" :: mixed 240 201) ∧
      (∀ message ∈ mixed 240 201, message.fields?.isSome = true) ∧
      ResultsBelow (2 ^ 53) (mixed 240 201) ∧
      (∃ done, trim 2 (mixed 240 201) = .ok done ∧
        blockAt done.prompt 3 0 = blockAt (mixed 240 201) 3 0 ∧
        trimInPlace 2 (mixed 240 201) = (.ok (1, 52), done.prompt)) ∧
      ∃ done, trim (-1) (mixed 240 201) = .ok done ∧
        trimInPlace (-1) (mixed 240 201) = (.ok (2, 94), done.prompt) := by
  have hbad : ∃ message ∈ (.string "hello" :: mixed 240 201 : List Json), message.fields? = none :=
    ⟨.string "hello", List.mem_cons_self, rfl⟩
  have hobjects := isSome_fields?_mixed 240 201
  have hbelow : ResultsBelow (2 ^ 53) (mixed 240 201) := resultsBelow_mixed (by omega) (by omega)
  obtain ⟨htwo, hnone⟩ : due 2 (mixed 240 201) = [⟨1, 0, 240⟩] ∧
      due (-1) (mixed 240 201) = [⟨3, 0, 201⟩, ⟨1, 0, 240⟩] := due_mixed (by decide) (by decide)
  have htokens : (Spot.mk 1 0 240).tokens = 52 ∧ (Spot.mk 3 0 201).tokens = 42 := by decide +kernel
  obtain ⟨hrefused, hleft⟩ := (trim_effect 0 (.string "hello" :: mixed 240 201)).1 hbad
  obtain ⟨done, hdone, -, -, -, -, hkept, -, hcounts⟩ := (trim_effect 2 (mixed 240 201)).2 hobjects
  obtain ⟨all, hall, -, -, -, -, -, -, hallCounts⟩ := (trim_effect (-1) (mixed 240 201)).2 hobjects
  obtain ⟨-, -, hplace⟩ := hcounts hbelow
  obtain ⟨-, -, hallPlace⟩ := hallCounts hbelow
  refine ⟨hbad, hrefused, hleft, hobjects, hbelow, ⟨done, hdone, hkept 3 0 ?_, ?_⟩, all, hall, ?_⟩
  · simp [htwo]
  · rw [hplace, htwo]
    simp [htokens]
  · rw [hallPlace, hnone]
    simp [htokens]

end Parley.Prompt.Rounds
