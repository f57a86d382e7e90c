import Parley.Pipeline
import Parley.Proofs.Budget
import Parley.Proofs.Pass
import Parley.Proofs.Window
set_option autoImplicit false

/-! # What compaction leaves alone

A pass over a conversation of texts shrinks it and keeps the messages of the window as they are
(`Frame`). Since shrinking leaves the start of the window in place, frames compose, and a whole
pipeline has the frame of its passes (`runPasses_frame`), in whatever order they run and whatever
they are. A run over texts that fit in a memory does come to an end without a fault
(`runPasses_isOk`). -/

namespace Parley

/-- What compaction may do to a conversation: shrink messages that stand before the window. -/
structure Frame (window : Int) (before after : List Message) : Prop where
  shrunk : List.Forall₂ Message.Shrunk before after
  kept : after.drop (Window.start before window) = before.drop (Window.start before window)

namespace Frame

variable {window : Int} {before after : List Message}

theorem refl (window : Int) (messages : List Message) : Frame window messages messages :=
  ⟨List.forall₂_same.2 fun m _ => Message.Shrunk.refl m, rfl⟩

theorem start_eq (h : Frame window before after) :
    Window.start after window = Window.start before window :=
  Window.start_eq_of_shrunk window h.shrunk

theorem trans {last : List Message} (h : Frame window before after)
    (h' : Frame window after last) : Frame window before last where
  shrunk := Pointwise.trans @Message.Shrunk.trans h.shrunk h'.shrunk
  kept := by rw [← h.start_eq, h'.kept, h.start_eq, h.kept]

theorem textResults (h : Frame window before after) (hbefore : ∀ m ∈ before, m.TextResults) :
    ∀ m ∈ after, m.TextResults := by
  intro m hm
  obtain ⟨old, hold, hshrunk⟩ := Pointwise.exists_of_mem h.shrunk hm
  exact hshrunk.textResults (hbefore old hold)

theorem textContents (h : Frame window before after)
    (hbefore : ∀ m ∈ before, m.content.isTextual = true) :
    ∀ m ∈ after, m.content.isTextual = true := by
  intro m hm
  obtain ⟨old, hold, hshrunk⟩ := Pointwise.exists_of_mem h.shrunk hm
  rw [hshrunk.content]
  exact hbefore old hold

/-- What stands at an index before and after. -/
theorem getElem? (h : Frame window before after) {i : Nat} {m : Message}
    (hm : before[i]? = some m) :
    ∃ m', after[i]? = some m' ∧ m.Shrunk m' ∧ (Window.start before window ≤ i → m' = m) := by
  obtain ⟨m', hm', hshrunk⟩ := Pointwise.exists_getElem? h.shrunk hm
  refine ⟨m', hm', hshrunk, fun hstart => ?_⟩
  -- from the window on, an index counts what follows its start
  obtain ⟨later, rfl⟩ := Nat.exists_eq_add_of_le hstart
  have hkept := congrArg (fun messages => messages[later]?) h.kept
  simp only [List.getElem?_drop, hm, hm', Option.some.injEq] at hkept
  exact hkept

end Frame

/-! ## One pass -/

/-- Every result is shorter than `2 ^ 63` characters. -/
def FitsMemory (messages : List Message) : Prop :=
  ∀ m ∈ messages, ∀ call ∈ m.toolCalls, call.result.textSize < 2 ^ 63

theorem Frame.fitsMemory {window : Int} {before after : List Message}
    (h : Frame window before after) (hbefore : FitsMemory before) : FitsMemory after := by
  intro m hm call hcall
  obtain ⟨old, hold, hshrunk⟩ := Pointwise.exists_of_mem h.shrunk hm
  obtain ⟨oldCall, holdCall, hresult⟩ := Pointwise.exists_of_mem hshrunk.toolCalls hcall
  have hlt := hbefore old hold oldCall holdCall
  rcases hresult.eq_or_lt with rfl | hle
  · exact hlt
  · exact hle.trans hlt

theorem Entry.tokensSaved_isOk {entries : List Entry}
    (h : ∀ e ∈ entries, (e.sizeBefore - e.sizeAfter).natAbs < 2 ^ 63) :
    ∃ saved, Entry.tokensSaved entries = .ok saved := by
  induction entries with
  | nil => exact ⟨0, rfl⟩
  | cons e rest ih =>
      obtain ⟨own, hown⟩ := Budget.tokens_isOk (h e List.mem_cons_self)
      obtain ⟨others, hothers⟩ := ih fun other hother => h other (List.mem_cons_of_mem _ hother)
      refine ⟨own + others, ?_⟩
      simp only [tokensSaved, Budget.saved, hown, hothers, bind, Except.bind, pure, Except.pure]

namespace Pass

theorem compact_frame {p : Pass} {messages : List Message} {window : Int} {done : Compaction}
    (h : ∀ m ∈ messages, m.TextResults) (hdone : p.compact messages window = .ok done) :
    Frame window messages done.messages := by
  obtain ⟨hmessages, -⟩ := (compact_eq_ok_iff h).1 hdone
  rw [hmessages]
  exact ⟨p.strategy.shrunk_compacted _ h,
    p.strategy.drop_compacted (Window.start_le_length messages window)⟩

/-- Every entry is about a text result of the conversation, which became shorter. -/
theorem sizes_of_mem_entries {p : Pass} {messages : List Message} {window : Int} {e : Entry}
    (h : ∀ m ∈ messages, m.TextResults) (he : e ∈ p.entries messages window) :
    ∃ m ∈ messages, ∃ call ∈ m.toolCalls, e.sizeBefore = call.result.textSize
      ∧ 0 ≤ e.sizeAfter ∧ e.sizeAfter < e.sizeBefore := by
  obtain ⟨i, m, hm, hentry⟩ := Strategy.mem_entriesFrom.1 he
  have hmem : m ∈ messages := List.mem_of_mem_take (List.mem_of_getElem? hm)
  obtain ⟨call, hcall, hcallEntry⟩ := Strategy.exists_call_of_mem_entriesAt hentry
  exact ⟨m, hmem, call, hcall, (Strategy.sizes_of_entryFor? (h m hmem call hcall) hcallEntry).2⟩

theorem compact_isOk (p : Pass) {messages : List Message} (window : Int)
    (h : ∀ m ∈ messages, m.TextResults) (hfits : FitsMemory messages) :
    ∃ done, p.compact messages window = .ok done := by
  have hsizes : ∀ e ∈ p.entries messages window,
      (e.sizeBefore - e.sizeAfter).natAbs < 2 ^ 63 := by
    intro e he
    obtain ⟨m, hm, call, hcall, hbefore, hafter, hlt⟩ := sizes_of_mem_entries h he
    have hsize := hfits m hm call hcall
    omega
  obtain ⟨saved, hsaved⟩ := Entry.tokensSaved_isOk hsizes
  refine ⟨⟨p.strategy.compacted (Window.start messages window) messages,
    ⟨if (p.entries messages window).isEmpty then [] else [p.name], p.entries messages window,
      saved⟩⟩, ?_⟩
  exact (compact_eq_ok_iff h).2 ⟨rfl, rfl, rfl, hsaved⟩

end Pass

/-! ## The passes of a pipeline -/

namespace Pipeline

theorem runPasses_cons_eq_ok {window : Int} {p : Pass} {rest : List Pass}
    {messages : List Message} {report : Report} {done : Compaction}
    (h : runPasses window (p :: rest) ⟨messages, report⟩ = .ok done) :
    ∃ next, p.compact messages window = .ok next ∧
      runPasses window rest ⟨next.messages, report.merge next.report⟩ = .ok done := by
  cases hnext : p.compact messages window with
  | error fault => simp [runPasses, hnext, bind, Except.bind] at h
  | ok next => exact ⟨next, rfl, by simpa [runPasses, hnext, bind, Except.bind] using h⟩

theorem runPasses_single (p : Pass) (messages : List Message) (window : Int) :
    runPasses window [p] ⟨messages, Report.empty⟩ = p.compact messages window := by
  rw [runPasses]
  cases p.compact messages window with
  | error fault => rfl
  | ok done =>
      show runPasses window [] ⟨done.messages, Report.empty.merge done.report⟩ = .ok done
      rw [Report.empty_merge]
      rfl

theorem runPasses_frame {window : Int} {passes : List Pass} {messages : List Message}
    {report : Report} {done : Compaction} (h : ∀ m ∈ messages, m.TextResults)
    (hdone : runPasses window passes ⟨messages, report⟩ = .ok done) :
    Frame window messages done.messages := by
  induction passes generalizing messages report with
  | nil =>
      simp only [runPasses, Except.ok.injEq] at hdone
      subst hdone
      exact Frame.refl window messages
  | cons p rest ih =>
      obtain ⟨next, hnext, hrest⟩ := runPasses_cons_eq_ok hdone
      have hframe := Pass.compact_frame h hnext
      exact hframe.trans (ih (hframe.textResults h) hrest)

theorem runPasses_isOk (window : Int) (passes : List Pass) (report : Report)
    {messages : List Message} (h : ∀ m ∈ messages, m.TextResults) (hfits : FitsMemory messages) :
    ∃ done, runPasses window passes ⟨messages, report⟩ = .ok done := by
  induction passes generalizing messages report with
  | nil => exact ⟨⟨messages, report⟩, rfl⟩
  | cons p rest ih =>
      obtain ⟨next, hnext⟩ := p.compact_isOk window h hfits
      have hframe := Pass.compact_frame h hnext
      simp only [runPasses, hnext, bind, Except.bind]
      exact ih _ (hframe.textResults h) (hframe.fitsMemory hfits)

theorem run_eq_runPasses {pipeline : Pipeline} {messages : List Message} {o : Occupancy}
    {ratio : Binary64} (h : o.ratio = .ok ratio) :
    pipeline.run messages o
      = runPasses o.window (pipeline.active (.float ratio)) ⟨messages, Report.empty⟩ := by
  simp only [run, h, bind, Except.bind]

/-- **The frame of compaction.** Whatever passes a pipeline has, it returns as many messages as it
    was given, each of them shrunk at most: role, content and tool calls stay as they are, except
    for texts of results that gave way to shorter ones. The messages of the window are not changed
    at all, and the window of the result starts where it did. A pipeline does return on results that
    fit in a memory. -/
theorem run_frame (pipeline : Pipeline) (messages : List Message) (o : Occupancy)
    (ratio : Binary64) (hratio : o.ratio = .ok ratio) (htext : ∀ m ∈ messages, m.TextResults) :
    (∀ done, pipeline.run messages o = .ok done →
      done.messages.length = messages.length ∧
      (∀ i m, messages[i]? = some m → ∃ m', done.messages[i]? = some m' ∧ m.Shrunk m' ∧
        (Window.start messages o.window ≤ i → m' = m)) ∧
      Window.start done.messages o.window = Window.start messages o.window) ∧
    (FitsMemory messages → ∃ done, pipeline.run messages o = .ok done) := by
  rw [run_eq_runPasses hratio]
  refine ⟨fun done hdone => ?_, fun hfits => runPasses_isOk _ _ _ htext hfits⟩
  have hframe : Frame o.window messages done.messages := runPasses_frame htext hdone
  exact ⟨hframe.shrunk.length_eq.symm, fun i m hm => hframe.getElem? hm, hframe.start_eq⟩

/-- A question, an answer with a long result and a long error, and another question. -/
def exchange : List Message :=
  let long := Json.string (String.ofList (List.replicate 70 'x'))
  [⟨.string "user", .string "q", []⟩,
    ⟨.string "assistant", .null,
      [⟨.string "a", .string "read", .object [], long, false⟩,
        ⟨.string "b", .string "read", .object [], long, true⟩]⟩,
    ⟨.string "user", .string "r", []⟩]

/-- A pruner that keeps all but sixty characters of an error, and a stub after it. -/
def twoPasses : Pipeline :=
  ofList [Pass.pruner ⟨-1, -60⟩,
    { Pass.pruner {} with name := "stub", strategy := .replace "[gone]" }]

/-- The conversation changes, and its frame does not. -/
theorem run_frame_exchange :
    (Occupancy.mk 1 2 1).ratio = .ok (.finite false 4503599627370496 (-53)) ∧
      (∀ m ∈ exchange, m.TextResults) ∧
      ∃ done, twoPasses.run exchange ⟨1, 2, 1⟩ = .ok done ∧ done.messages ≠ exchange ∧
        done.messages.length = 3 ∧ Window.start done.messages 1 = 2 := by
  have hratio : (Occupancy.mk 1 2 1).ratio = .ok (.finite false 4503599627370496 (-53)) := by
    decide +kernel
  have htext : ∀ m ∈ exchange, m.TextResults := by decide +kernel
  have hfits : FitsMemory exchange := by
    unfold FitsMemory
    decide +kernel
  have hchanged : (twoPasses.run exchange ⟨1, 2, 1⟩).map Compaction.messages ≠ .ok exchange := by
    decide +kernel
  obtain ⟨hframe, hruns⟩ := run_frame twoPasses exchange ⟨1, 2, 1⟩ _ hratio htext
  obtain ⟨done, hdone⟩ := hruns hfits
  obtain ⟨hlength, -, hstart⟩ := hframe done hdone
  refine ⟨hratio, htext, done, hdone, fun heq => ?_, hlength, hstart.trans (by decide)⟩
  rw [hdone] at hchanged
  exact hchanged (congrArg Except.ok heq)

end Pipeline

end Parley
