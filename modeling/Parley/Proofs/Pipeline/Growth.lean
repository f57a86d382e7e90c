import Parley.Proofs.Pipeline.Again
set_option autoImplicit false

/-! # Compaction as a conversation grows

The window starts no earlier when messages are added or when it gets narrower. What is made of a
message depends on nothing but the message and its index, so a pass that runs on the longer
conversation does all that it did on the shorter one, in the same order, and then goes on
(`Pass.entries_append`). A result that was shortened in one turn is therefore the same text in every
later turn. -/

namespace Parley

open Strategy
open Pipeline (exchange)

/-! ## Entries -/

theorem Strategy.entriesFrom_longer (s : Strategy) (index : Nat) {messages longer : List Message}
    (h : messages <+: longer) : s.entriesFrom index messages <+: s.entriesFrom index longer := by
  obtain ⟨later, rfl⟩ := h
  rw [entriesFrom_append]
  exact List.prefix_append _ _

/-- Where the tokens of some entries are there, so are those of the first of them. -/
theorem Entry.tokensSaved_of_opening {entries more : List Entry} {saved : Int}
    (h : entries <+: more) (hsaved : Entry.tokensSaved more = .ok saved) :
    ∃ part, Entry.tokensSaved entries = .ok part := by
  induction entries generalizing more saved with
  | nil => exact ⟨0, rfl⟩
  | cons e rest ih =>
      obtain ⟨later, rfl⟩ := h
      rw [List.cons_append, tokensSaved] at hsaved
      cases hown : Budget.saved e.sizeBefore e.sizeAfter with
      | error fault => simp [hown, bind, Except.bind] at hsaved
      | ok own =>
          cases hothers : Entry.tokensSaved (rest ++ later) with
          | error fault => simp [hown, hothers, bind, Except.bind] at hsaved
          | ok others =>
              obtain ⟨part, hpart⟩ := ih (List.prefix_append rest later) hothers
              refine ⟨own + part, ?_⟩
              simp only [tokensSaved, hown, hpart, bind, Except.bind, pure, Except.pure]

namespace Pass

section Growth

variable {p : Pass} {messages added : List Message} {window window' : Int}

/-- The messages before the window of the shorter conversation open those before the window of the
    longer one. -/
theorem take_start_append (h : window' ≤ window) :
    messages.take (Window.start messages window)
      <+: (messages ++ added).take (Window.start (messages ++ added) window') := by
  have hshort := Window.start_le_length messages window
  have hfront : (messages ++ added).take (Window.start messages window)
      = messages.take (Window.start messages window) := List.take_append_of_le_length hshort
  rw [← hfront]
  exact List.take_prefix_take_left (Window.start_le_start messages added h)

theorem entries_append (h : window' ≤ window) :
    p.entries messages window <+: p.entries (messages ++ added) window' :=
  p.strategy.entriesFrom_longer 0 (take_start_append h)

/-- A pass that comes to an end on the longer conversation does so on the shorter one. -/
theorem compact_isOk_of_append (htext : ∀ m ∈ messages ++ added, m.TextResults)
    (h : window' ≤ window) {later : Compaction}
    (hlater : p.compact (messages ++ added) window' = .ok later) :
    ∃ done, p.compact messages window = .ok done := by
  have hsaved := ((compact_eq_ok_iff htext).1 hlater).2.2.2
  obtain ⟨part, hpart⟩ := Entry.tokensSaved_of_opening (entries_append h) hsaved
  have hmessages : ∀ m ∈ messages, m.TextResults :=
    fun m hm => htext m (List.mem_append_left _ hm)
  refine ⟨⟨p.strategy.compacted (Window.start messages window) messages,
    ⟨if (p.entries messages window).isEmpty then [] else [p.name], p.entries messages window,
      part⟩⟩, ?_⟩
  exact (compact_eq_ok_iff hmessages).2 ⟨rfl, rfl, rfl, hpart⟩

/-- Before the window of the shorter conversation, both are compacted to the same messages. -/
theorem getElem?_compacted_append (s : Strategy) (h : window' ≤ window) {i : Nat}
    (hi : i < Window.start messages window) :
    (s.compacted (Window.start (messages ++ added) window') (messages ++ added))[i]?
      = (s.compacted (Window.start messages window) messages)[i]? := by
  have hlonger := Window.start_le_start messages added h
  have hlength := Window.start_le_length messages window
  rw [getElem?_compacted, getElem?_compacted, if_pos (by omega), if_pos hi,
    List.getElem?_append_left (by omega)]

end Growth

/-- **Growth only adds to what is compacted.** Let messages be added to a conversation of texts and
    let the window stay or get narrower. The window does not start earlier than before. Where a pass
    comes to an end on the longer conversation, it does so on the shorter one: its entries there
    open the entries of the longer one, and up to the window of the shorter one both runs leave the
    same messages, so each result that was shortened is the same text from then on. A pass does come
    to an end on results that fit in a memory. -/
theorem compact_append (p : Pass) (messages added : List Message) (window window' : Int)
    (htext : ∀ m ∈ messages ++ added, m.TextResults) (hwindow : window' ≤ window) :
    Window.start messages window ≤ Window.start (messages ++ added) window' ∧
    (∀ later, p.compact (messages ++ added) window' = .ok later →
      ∃ done, p.compact messages window = .ok done ∧
        done.report.entries <+: later.report.entries ∧
        (∀ i < Window.start messages window, done.messages[i]? = later.messages[i]?) ∧
        ∀ i j, callAt done.messages i j ≠ callAt messages i j →
          callAt later.messages i j = callAt done.messages i j) ∧
    (FitsMemory (messages ++ added) →
      ∃ later, p.compact (messages ++ added) window' = .ok later) := by
  have hmessages : ∀ m ∈ messages, m.TextResults :=
    fun m hm => htext m (List.mem_append_left _ hm)
  refine ⟨Window.start_le_start messages added hwindow, ?_,
    fun hfits => compact_isOk p window' htext hfits⟩
  intro later hlater
  obtain ⟨done, hdone⟩ := compact_isOk_of_append htext hwindow hlater
  obtain ⟨hshort, hentries, -⟩ := (compact_eq_ok_iff hmessages).1 hdone
  obtain ⟨hlong, hmore, -⟩ := (compact_eq_ok_iff htext).1 hlater
  have hsame : ∀ i < Window.start messages window, done.messages[i]? = later.messages[i]? := by
    intro i hi
    rw [hshort, hlong, getElem?_compacted_append p.strategy hwindow hi]
  refine ⟨done, hdone, ?_, hsame, ?_⟩
  · rw [hentries, hmore]
    exact entries_append hwindow
  · intro i j hchanged
    -- a call that was changed stands before the window
    have hi : i < Window.start messages window := by
      by_contra hprotected
      refine hchanged ?_
      rw [callAt, callAt, hshort, getElem?_compacted, if_neg hprotected]
    rw [callAt, callAt, hsame i hi]

/-- With more messages and a narrower window, a pruner goes on from one message to two more. -/
theorem compact_append_exchanges :
    (∀ m ∈ (exchange ++ exchange) ++ exchange, m.TextResults) ∧ (1 : Int) ≤ 3 ∧
      FitsMemory ((exchange ++ exchange) ++ exchange) ∧
      ∃ done later, (pruner ⟨-1, -60⟩).compact (exchange ++ exchange) 3 = .ok done ∧
        (pruner ⟨-1, -60⟩).compact ((exchange ++ exchange) ++ exchange) 1 = .ok later ∧
        done.report.entries.map Entry.messageIndex = [1, 1] ∧
        later.report.entries.map Entry.messageIndex = [1, 1, 4, 4, 7, 7] ∧
        done.report.entries <+: later.report.entries ∧
        done.messages[1]? = later.messages[1]? := by
  have htext : ∀ m ∈ (exchange ++ exchange) ++ exchange, m.TextResults := by decide +kernel
  have hfits : FitsMemory ((exchange ++ exchange) ++ exchange) := by
    unfold FitsMemory
    decide +kernel
  have hearly : ((pruner ⟨-1, -60⟩).compact (exchange ++ exchange) 3).map
      (fun done => done.report.entries.map Entry.messageIndex) = .ok [1, 1] := by
    decide +kernel
  have hlate : ((pruner ⟨-1, -60⟩).compact ((exchange ++ exchange) ++ exchange) 1).map
      (fun later => later.report.entries.map Entry.messageIndex) = .ok [1, 1, 4, 4, 7, 7] := by
    decide +kernel
  obtain ⟨-, hboth, hruns⟩ := compact_append (pruner ⟨-1, -60⟩) (exchange ++ exchange) exchange 3 1
    htext (by decide)
  obtain ⟨later, hlater⟩ := hruns hfits
  obtain ⟨done, hdone, hentries, hsame, -⟩ := hboth later hlater
  rw [hdone] at hearly
  rw [hlater] at hlate
  exact ⟨htext, by decide, hfits, done, later, hdone, hlater, Except.ok.inj hearly,
    Except.ok.inj hlate, hentries, hsame 1 (by decide +kernel)⟩

end Pass

end Parley
