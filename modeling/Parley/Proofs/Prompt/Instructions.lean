import Parley.Prompt.Instructions
set_option autoImplicit false

/-! # What a system prompt states about its size

For a context whose size is known, one of the sections of a system prompt has a line with the tokens
in use, the size of the context and the part in percent (`contextLines`). The sections are put
together from a list of which empty texts are left out. That section is none of these, since it has
the line (`isEmpty_intercalate_contextLines`), so it stands in every such prompt
(`exists_contextLines`). -/

namespace Parley.Prompt.Instructions

/-- The line about the part of the context in use. -/
def usageLine (usage limit part : Int) : String :=
  "Token usage: " ++ grouped usage ++ "/" ++ grouped limit ++ " (" ++ decimalText part ++ "%)"

/-- The lines about a conversation, for a context whose size is known. -/
def contextLines (messageCount usage limit part : Int) : List String :=
  (if 0 < messageCount then ["Messages in history: " ++ decimalText messageCount] else [])
    ++ [usageLine usage limit part]

theorem length_usageLine_pos (usage limit part : Int) :
    0 < (usageLine usage limit part).length := by
  have hstart : "Token usage: ".length = 13 := rfl
  unfold usageLine
  rw [String.length_append, String.length_append, String.length_append, String.length_append,
    String.length_append, String.length_append, hstart]
  omega

theorem isEmpty_intercalate_contextLines (messageCount usage limit part : Int) :
    ("\n".intercalate (contextLines messageCount usage limit part)).isEmpty = false := by
  have hline := length_usageLine_pos usage limit part
  have hpos : 0 < ("\n".intercalate (contextLines messageCount usage limit part)).length := by
    unfold contextLines
    split
    · rw [List.singleton_append, String.intercalate_cons_cons, String.intercalate_singleton,
        String.length_append]
      omega
    · rw [List.nil_append, String.intercalate_singleton]
      exact hline
  rw [Bool.eq_false_iff, ne_eq, String.isEmpty_iff]
  intro hempty
  rw [hempty] at hpos
  exact absurd hpos (Nat.lt_irrefl 0)

theorem contextSection_eq {messageCount usage limit part : Int} (hlimit : 0 < limit)
    (hpart : percent usage limit = .ok part) :
    contextSection messageCount usage limit
      = .ok (some ("\n".intercalate (contextLines messageCount usage limit part))) := by
  have hlines : (contextLines messageCount usage limit part).isEmpty = false := by
    simp [contextLines]
  unfold contextSection
  simp only [if_pos hlimit, hpart, bind, Except.bind, pure, Except.pure]
  change Except.ok (if (contextLines messageCount usage limit part).isEmpty = true then none
    else some ("\n".intercalate (contextLines messageCount usage limit part))) = _
  rw [hlines, if_neg Bool.false_ne_true]

/-- A system prompt states how much of a context of known size is in use. -/
theorem exists_contextLines {core : String} {messageCount usage limit : Int} {tools : List String}
    {now : Moment} {parts : List String} (hlimit : 0 < limit)
    (h : sections core messageCount usage limit tools now = .ok parts) :
    ∃ part, percent usage limit = .ok part ∧
      "\n".intercalate (contextLines messageCount usage limit part) ∈ parts := by
  unfold sections at h
  cases hpart : percent usage limit with
  | error fault =>
      simp only [contextSection, if_pos hlimit, hpart, bind, Except.bind, reduceCtorEq] at h
  | ok part =>
      simp only [contextSection_eq hlimit hpart, bind, Except.bind, pure, Except.pure,
        Except.ok.injEq, Option.getD_some] at h
      refine ⟨part, rfl, ?_⟩
      rw [← h, List.mem_filter, isEmpty_intercalate_contextLines]
      refine ⟨?_, rfl⟩
      exact List.mem_cons_of_mem _ (List.mem_cons_of_mem _ List.mem_cons_self)

end Parley.Prompt.Instructions
