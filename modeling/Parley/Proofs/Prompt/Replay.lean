import Parley.Proofs.Budget
import Parley.Proofs.Prompt.Trimming
import Mathlib.Algebra.BigOperators.Group.List.Basic
set_option autoImplicit false

/-! # Trimming round by round

A prompt grows and is trimmed, over and over. At each trimming it consists of what the trimming
before it left and of what came in since (`Visit`), and because trimming again is trimming once, it
leaves what one trimming leaves of everything that has come in so far (`trim_given`). The cuts of
all the trimmings together are those of one trimming at the end, in another order
(`visitCuts_perm`), which is why counts and tokens add up. -/

namespace Parley.Prompt.Rounds

/-! ## Histories of a prompt -/

/-- What happens to a prompt: messages come in, or it is trimmed. -/
inductive Step
  | append (messages : List Json)
  | trim
deriving DecidableEq

/-- The messages that come in. -/
def appended : List Step → List Json
  | [] => []
  | .append messages :: rest => messages ++ appended rest
  | .trim :: rest => appended rest

theorem appended_append (steps later : List Step) :
    appended (steps ++ later) = appended steps ++ appended later := by
  induction steps with
  | nil => rfl
  | cons step rest ih =>
      cases step with
      | append messages =>
          rw [List.cons_append, appended, appended, ih, List.append_assoc]
      | trim => rw [List.cons_append, appended, appended, ih]

/-- A prompt before and after it was trimmed. -/
structure Trimming where
  given : List Json
  done : Trimmed

/-- The prompt after some steps, and the trimmings on the way. -/
def replay (keep : Int) : List Step → List Json → Except Fault (List Json × List Trimming)
  | [], prompt => .ok (prompt, [])
  | .append messages :: rest, prompt => replay keep rest (prompt ++ messages)
  | .trim :: rest, prompt => do
      let done ← trim keep prompt
      let (final, later) ← replay keep rest done.prompt
      return (final, ⟨prompt, done⟩ :: later)

/-- A trimming puts something else at a place. -/
def Trimming.Replaces (t : Trimming) (i j : Nat) : Prop :=
  blockAt t.done.prompt i j ≠ blockAt t.given i j

/-! ## What one trimming finds -/

/-- A prompt that is about to be trimmed, in its original form: what the trimmings before have seen
    and what came in since. -/
structure Visit where
  seen : List Json
  fresh : List Json

namespace Visit

variable (keep : Nat) (v : Visit)

/-- Everything that has come in so far. -/
def all : List Json :=
  v.seen ++ v.fresh

/-- The prompt that is trimmed. -/
def given : List Json :=
  trimmedPrompt keep 0 v.seen ++ v.fresh

/-- The trimming. -/
def trimming : Trimming where
  given := v.given keep
  done := ⟨trimmedPrompt keep 0 v.all, promptCuts keep 0 (v.given keep)⟩

theorem trimmedPrompt_given (hbelow : ResultsBelow (2 ^ 63) v.all) :
    trimmedPrompt keep 0 (v.given keep) = trimmedPrompt keep 0 v.all ∧
      (promptCuts keep 0 v.seen ++ promptCuts keep 0 (v.given keep)).Perm
        (promptCuts keep 0 v.all) := by
  have hseen : ResultsBelow (2 ^ 63) v.seen :=
    fun message hmessage => hbelow message (List.mem_append_left _ hmessage)
  obtain ⟨hprompt, hcuts⟩ := trimmedPrompt_again keep
    (Nat.le_add_right 0 (promptResults v.fresh)) hseen
  constructor
  · rw [given, all, trimmedPrompt_append, trimmedPrompt_append, hprompt]
  · rw [given, all, promptCuts_append, promptCuts_append, ← List.append_assoc]
    exact hcuts.append_right _

theorem isSome_fields?_given (h : ∀ message ∈ v.all, message.fields?.isSome = true) :
    ∀ message ∈ v.given keep, message.fields?.isSome = true := by
  intro message hmessage
  rcases List.mem_append.1 hmessage with hold | hfresh
  · exact isSome_fields?_trimmedPrompt keep 0
      (fun original horiginal => h original (List.mem_append_left _ horiginal)) message hold
  · exact h message (List.mem_append_right _ hfresh)

/-- A trimming leaves what one trimming leaves of everything that has come in. -/
theorem trim_given (keep : Int) (v : Visit)
    (hobjects : ∀ message ∈ v.all, message.fields?.isSome = true)
    (hbelow : ResultsBelow (2 ^ 63) v.all) :
    trim keep (v.given keep.toNat) = .ok (v.trimming keep.toNat).done := by
  rw [trim_eq_ok keep (isSome_fields?_given keep.toNat v hobjects),
    (trimmedPrompt_given keep.toNat v hbelow).1]
  rfl

/-! ### Places -/

theorem blockAt_given (i j : Nat) :
    blockAt (v.given keep) i j
      = (blockAt v.all i j).map fun block =>
          if i < v.seen.length then shown keep (resultsAfter v.seen i j) block else block := by
  have hlength := length_trimmedPrompt keep 0 v.seen
  unfold given all
  by_cases hi : i < v.seen.length
  · rw [blockAt_append_left (by omega), blockAt_append_left hi, blockAt_trimmedPrompt]
    simp only [if_pos hi, Nat.zero_add]
  · rw [blockAt_append_right (by omega), blockAt_append_right (by omega), hlength]
    simp only [if_neg hi, Option.map_id']

theorem blockAt_done (i j : Nat) :
    blockAt (v.trimming keep).done.prompt i j
      = (blockAt v.all i j).map (shown keep (resultsAfter v.all i j)) := by
  rw [trimming, blockAt_trimmedPrompt, Nat.zero_add]

theorem resultsAfter_seen_le {v : Visit} {i : Nat} (h : i < v.seen.length) (j : Nat) :
    resultsAfter v.seen i j ≤ resultsAfter v.all i j := by
  rw [all, resultsAfter_append h]
  exact Nat.le_add_right _ _

/-- A block that is replaced was still the one that came in, and it gives way for the first time. -/
theorem exists_of_replaces {keep : Nat} {v : Visit} {i j : Nat} (h : (v.trimming keep).Replaces i j) :
    ∃ block, blockAt v.all i j = some block ∧ blockAt (v.given keep) i j = some block ∧
      shown keep (resultsAfter v.all i j) block ≠ block := by
  unfold Trimming.Replaces at h
  rw [blockAt_done] at h
  have hgiven := blockAt_given keep v i j
  change _ ≠ blockAt (v.given keep) i j at h
  rw [hgiven] at h ⊢
  cases hblock : blockAt v.all i j with
  | none => simp [hblock] at h
  | some block =>
      simp only [hblock, Option.map_some, ne_eq, Option.some.injEq] at h
      refine ⟨block, rfl, ?_⟩
      rw [Option.map_some, Option.some.injEq]
      by_cases hi : i < v.seen.length
      · rw [if_pos hi] at h ⊢
        -- had it given way before, the same would stand there after this trimming
        have hstill : shown keep (resultsAfter v.seen i j) block = block := by
          by_contra hgone
          obtain ⟨text, -, -, hstays⟩ := shown_of_ne hgone
          rw [hstays _ (resultsAfter_seen_le hi j), hstays _ (Nat.le_refl _)] at h
          exact h rfl
        rw [hstill] at h ⊢
        exact ⟨rfl, h⟩
      · rw [if_neg hi] at h ⊢
        exact ⟨rfl, h⟩

end Visit

/-! ## The trimmings on the way -/

/-- The trimmings on the way, where `seen` was trimmed before and `fresh` came in since. -/
def visits : List Step → List Json → List Json → List Visit
  | [], _, _ => []
  | .append messages :: rest, seen, fresh => visits rest seen (fresh ++ messages)
  | .trim :: rest, seen, fresh => ⟨seen, fresh⟩ :: visits rest (seen ++ fresh) []

theorem prefix_of_mem_visits {steps : List Step} {seen fresh : List Json} {v : Visit}
    (h : v ∈ visits steps seen fresh) :
    seen <+: v.seen ∧ v.all <+: seen ++ fresh ++ appended steps := by
  induction steps generalizing seen fresh with
  | nil => exact absurd h (by simp [visits])
  | cons step rest ih =>
      cases step with
      | append messages =>
          obtain ⟨hseen, hall⟩ := ih h
          rw [← List.append_assoc, List.append_assoc _ messages] at hall
          exact ⟨hseen, hall⟩
      | trim =>
          rcases List.mem_cons.1 h with rfl | hrest
          · exact ⟨List.prefix_refl _, List.prefix_append _ _⟩
          · obtain ⟨hseen, hall⟩ := ih hrest
            rw [List.append_nil] at hall
            exact ⟨(List.prefix_append _ _).trans hseen, hall⟩

/-- A trimming has seen all that the trimmings before it were given. -/
theorem pairwise_visits (steps : List Step) (seen fresh : List Json) :
    (visits steps seen fresh).Pairwise fun first second => first.all <+: second.seen := by
  induction steps generalizing seen fresh with
  | nil => exact .nil
  | cons step rest ih =>
      cases step with
      | append messages => exact ih seen (fresh ++ messages)
      | trim =>
          exact List.Pairwise.cons (fun second hsecond => (prefix_of_mem_visits hsecond).1)
            (ih (seen ++ fresh) [])

theorem replay_eq_ok {keep : Int} {steps : List Step} {seen fresh : List Json}
    (hobjects : ∀ message ∈ seen ++ fresh ++ appended steps, message.fields?.isSome = true)
    (hbelow : ResultsBelow (2 ^ 63) (seen ++ fresh ++ appended steps)) :
    replay keep (steps ++ [.trim]) (Visit.given keep.toNat ⟨seen, fresh⟩)
      = .ok (trimmedPrompt keep.toNat 0 (seen ++ fresh ++ appended steps),
          (visits (steps ++ [.trim]) seen fresh).map (Visit.trimming keep.toNat)) := by
  -- the prompt is always the trimming of `seen` with `fresh` after it: an append lengthens `fresh`,
  -- and a trimming moves it over to `seen`
  induction steps generalizing seen fresh with
  | nil =>
      rw [appended, List.append_nil] at hobjects hbelow ⊢
      have htrim := Visit.trim_given keep ⟨seen, fresh⟩ hobjects hbelow
      simp only [List.nil_append, replay, htrim, bind, Except.bind, pure, Except.pure, visits,
        List.map_cons, List.map_nil]
      rfl
  | cons step rest ih =>
      cases step with
      | append messages =>
          have hassoc : seen ++ fresh ++ (messages ++ appended rest)
              = seen ++ (fresh ++ messages) ++ appended rest := by simp only [List.append_assoc]
          rw [appended, hassoc] at hobjects hbelow ⊢
          have hrest := ih hobjects hbelow
          rw [List.cons_append, replay, visits, ← hrest, Visit.given, Visit.given,
            List.append_assoc]
      | trim =>
          rw [appended] at hobjects hbelow ⊢
          have hfront : ∀ message ∈ seen ++ fresh, message ∈ seen ++ fresh ++ appended rest :=
            fun message hmessage => List.mem_append_left _ hmessage
          have htrim := Visit.trim_given keep ⟨seen, fresh⟩
            (fun message hmessage => hobjects message (hfront message hmessage))
            (fun message hmessage => hbelow message (hfront message hmessage))
          have hrest := @ih (seen ++ fresh) []
            (by rwa [List.append_nil]) (by rwa [List.append_nil])
          rw [Visit.given, List.append_nil, List.append_nil] at hrest
          simp only [List.cons_append, replay, htrim, bind, Except.bind, visits, List.map_cons]
          rw [Visit.trimming]
          simp only [Visit.all, hrest, pure, Except.pure]

/-- The cuts of the trimmings on the way, together with those from before, are the cuts of one
    trimming. -/
theorem visitCuts_perm {keep : Nat} {steps : List Step} {seen fresh : List Json}
    (hbelow : ResultsBelow (2 ^ 63) (seen ++ fresh ++ appended steps)) :
    (promptCuts keep 0 seen ++ (visits (steps ++ [.trim]) seen fresh).flatMap
        fun v => (v.trimming keep).done.cuts).Perm
      (promptCuts keep 0 (seen ++ fresh ++ appended steps)) := by
  induction steps generalizing seen fresh with
  | nil =>
      rw [appended, List.append_nil] at hbelow ⊢
      rw [List.nil_append, visits, visits, List.flatMap_cons, List.flatMap_nil, List.append_nil]
      exact (Visit.trimmedPrompt_given keep ⟨seen, fresh⟩ hbelow).2
  | cons step rest ih =>
      cases step with
      | append messages =>
          have hassoc : seen ++ fresh ++ (messages ++ appended rest)
              = seen ++ (fresh ++ messages) ++ appended rest := by simp only [List.append_assoc]
          rw [appended, hassoc] at hbelow ⊢
          exact ih hbelow
      | trim =>
          rw [appended] at hbelow ⊢
          have hfirst := (Visit.trimmedPrompt_given keep ⟨seen, fresh⟩
            fun message hmessage => hbelow message (List.mem_append_left _ hmessage)).2
          have hrest := @ih (seen ++ fresh) [] (by rwa [List.append_nil])
          rw [List.append_nil] at hrest
          rw [List.cons_append, visits, List.flatMap_cons, ← List.append_assoc]
          exact (hfirst.append_right _).trans hrest

/-! ## Tokens -/

/-- The tokens saved by a cut. -/
def cutTokens (cut : Nat × Nat) : Int :=
  ⌈(((cut.1 : Int) - (cut.2 : Int) : Int) : Rat) / 4⌉

theorem tokensSaved_eq {cuts : List (Nat × Nat)} (h : ∀ cut ∈ cuts, cut.2 ≤ cut.1 ∧ cut.1 < 2 ^ 53) :
    tokensSaved cuts = .ok (cuts.map cutTokens).sum := by
  induction cuts with
  | nil => rfl
  | cons cut rest ih =>
      obtain ⟨before, after⟩ := cut
      obtain ⟨hle, hlt⟩ := h _ List.mem_cons_self
      have hsmall : ((before : Int) - (after : Int)).natAbs < 2 ^ 53 := by omega
      have hrest := ih fun other hother => h other (List.mem_cons_of_mem _ hother)
      simp only [tokensSaved, Budget.saved_eq_ceil hsmall.le, hrest, bind, Except.bind, pure,
        Except.pure, List.map_cons, List.sum_cons, cutTokens]

theorem bounds_of_mem_blockCuts {keep later limit : Nat} {blocks : List Json} {cut : Nat × Nat}
    (hlimit : limit ≤ 2 ^ 63) (hbelow : ∀ block ∈ blocks, Below limit block)
    (h : cut ∈ blockCuts keep later blocks) : cut.2 ≤ cut.1 ∧ cut.1 < limit := by
  induction blocks with
  | nil => exact absurd h (by simp [blockCuts])
  | cons block rest ih =>
      rcases List.mem_append.1 h with hown | hrest
      · unfold cutsOf at hown
        split at hown
        · next text htext =>
            obtain ⟨-, hresult, hlong⟩ := longText?_eq_some_iff.1 htext
            have hlt := hbelow block List.mem_cons_self text hresult
            have hshort := length_placeholder_le (hlt.trans_le hlimit)
            rw [List.mem_singleton.1 hown]
            exact ⟨by omega, hlt⟩
        · exact absurd hown (by simp)
      · exact ih (fun other hother => hbelow other (List.mem_cons_of_mem _ hother)) hrest

theorem bounds_of_mem_promptCuts {keep later limit : Nat} {prompt : List Json} {cut : Nat × Nat}
    (hlimit : limit ≤ 2 ^ 63) (hbelow : ResultsBelow limit prompt)
    (h : cut ∈ promptCuts keep later prompt) : cut.2 ≤ cut.1 ∧ cut.1 < limit := by
  induction prompt with
  | nil => exact absurd h (by simp [promptCuts])
  | cons message rest ih =>
      rcases List.mem_append.1 h with hown | hrest
      · exact bounds_of_mem_blockCuts hlimit (hbelow message List.mem_cons_self) hown
      · exact ih (fun other hother => hbelow other (List.mem_cons_of_mem _ hother)) hrest

/-! ## Places over time -/

theorem blockAt_longer {prompt longer : List Json} (h : prompt <+: longer) {i j : Nat}
    {block : Json} (hblock : blockAt prompt i j = some block) :
    blockAt longer i j = some block ∧ resultsAfter prompt i j ≤ resultsAfter longer i j := by
  obtain ⟨added, rfl⟩ := h
  have hi := lt_length_of_blockAt hblock
  rw [blockAt_append_left hi, resultsAfter_append hi]
  exact ⟨hblock, Nat.le_add_right _ _⟩

/-- Where one trimming replaced a block, no later one does. -/
theorem not_replaces_of_replaces {keep : Nat} {first second : Visit}
    (h : first.all <+: second.seen) {i j : Nat} (hfirst : (first.trimming keep).Replaces i j) :
    ¬ (second.trimming keep).Replaces i j := by
  obtain ⟨block, hblock, -, hgone⟩ := Visit.exists_of_replaces hfirst
  obtain ⟨text, -, -, hstays⟩ := shown_of_ne hgone
  obtain ⟨hseen, hafter⟩ := blockAt_longer h hblock
  have hi := lt_length_of_blockAt hseen
  have hall : blockAt second.all i j = some block := by
    rw [Visit.all, blockAt_append_left hi, hseen]
  have hmore := Visit.resultsAfter_seen_le hi j
  have hgiven := Visit.blockAt_given keep second i j
  rw [hall, Option.map_some, if_pos hi, hstays _ hafter] at hgiven
  rw [Trimming.Replaces, Visit.blockAt_done, hall, Option.map_some,
    hstays _ (hafter.trans hmore)]
  exact not_not.2 hgiven.symm

/-! ## All the trimmings together -/

/-- **Trimming round by round is trimming once.** Take any history of messages that come in and of
    trimmings, all with the same number of results to keep, and let it end with a trimming. The
    prompt that it leaves is what one trimming leaves of all the messages that ever came in; the
    blocks that gave way on the way, and the tokens saved by that, add up to those of this one
    trimming. A block that is replaced stands there as it came in, so that its placeholder states
    the length of what came in, and it is never replaced again. -/
theorem replay_eq_trim (keep : Int) (steps : List Step)
    (hobjects : ∀ message ∈ appended steps, message.fields?.isSome = true)
    (hbelow : ResultsBelow (2 ^ 53) (appended steps)) :
    ∃ once trimmings saved,
      trim keep (appended steps) = .ok once ∧
      replay keep (steps ++ [.trim]) [] = .ok (once.prompt, trimmings) ∧
      (trimmings.map fun t => t.done.cuts.length).sum = once.cuts.length ∧
      List.Forall₂ (fun t n => tokensSaved t.done.cuts = .ok n) trimmings saved ∧
      tokensSaved once.cuts = .ok saved.sum ∧
      (∀ t ∈ trimmings, ∀ i j, t.Replaces i j → ∃ block text,
        blockAt (appended steps) i j = some block ∧ blockAt t.given i j = some block ∧
        resultText? block = some text ∧ keptLength < text.length ∧
        blockAt t.done.prompt i j = some (withText (placeholder text.length) block)) ∧
      trimmings.Pairwise fun first second =>
        ∀ i j, first.Replaces i j → ¬ second.Replaces i j := by
  have hfits : ResultsBelow (2 ^ 63) (appended steps) := hbelow.mono (by omega)
  have hempty : ([] : List Json) ++ [] ++ appended steps = appended steps := rfl
  have happended : appended (steps ++ [.trim]) = appended steps := by
    rw [appended_append]
    exact List.append_nil _
  have hreplay := @replay_eq_ok keep steps [] [] hobjects hfits
  have hperm := @visitCuts_perm keep.toNat steps [] [] hfits
  rw [hempty] at hreplay hperm
  rw [promptCuts, List.nil_append] at hperm
  -- every cut on the way is a cut of the one trimming, so its tokens are exact
  have hbounds : ∀ v ∈ visits (steps ++ [.trim]) [] [], ∀ cut ∈ (v.trimming keep.toNat).done.cuts,
      cut.2 ≤ cut.1 ∧ cut.1 < 2 ^ 53 := by
    intro v hv cut hcut
    exact bounds_of_mem_promptCuts (by omega) hbelow
      (hperm.subset (List.mem_flatMap.2 ⟨v, hv, hcut⟩))
  refine ⟨_, _, (visits (steps ++ [.trim]) [] []).map fun v =>
      ((v.trimming keep.toNat).done.cuts.map cutTokens).sum,
    trim_eq_ok keep hobjects, hreplay, ?_, ?_, ?_, ?_, ?_⟩
  · rw [← hperm.length_eq, List.length_flatMap, List.map_map]
    rfl
  · rw [List.forall₂_map_left_iff, List.forall₂_map_right_iff, List.forall₂_same]
    exact fun v hv => tokensSaved_eq (hbounds v hv)
  · rw [tokensSaved_eq fun cut hcut => bounds_of_mem_promptCuts (by omega) hbelow hcut,
      ← (hperm.map cutTokens).sum_eq, List.map_flatMap, List.flatMap_def, List.sum_flatten,
      List.map_map]
    rfl
  · intro t ht i j hreplaces
    obtain ⟨v, hv, rfl⟩ := List.mem_map.1 ht
    obtain ⟨block, hall, hgiven, hgone⟩ := Visit.exists_of_replaces hreplaces
    obtain ⟨text, htext, hlong, hstays⟩ := shown_of_ne hgone
    have hprefix := (prefix_of_mem_visits hv).2
    rw [happended, hempty] at hprefix
    refine ⟨block, text, (blockAt_longer hprefix hall).1, hgiven, htext, hlong, ?_⟩
    rw [Visit.blockAt_done, hall, Option.map_some, hstays _ (Nat.le_refl _)]
  · rw [List.pairwise_map]
    refine (pairwise_visits _ _ _).imp fun hprefix i j => ?_
    exact not_replaces_of_replaces hprefix

/-- The messages of a round with one tool call that brings back some number of characters. -/
def errand (size : Nat) : List Json :=
  [entry "assistant" (.array [toolUseBlock (.string "a") (.string "read") (.object [])]),
    entry "user" (.array [toolResultBlock (.string "a")
      (.string (String.ofList (List.replicate size 'x'))) false])]

/-- Three rounds, and a trimming after each of the first two. -/
def errands (first second third : Nat) : List Step :=
  [.append (errand first), .trim, .append (errand second), .trim, .append (errand third)]

theorem isSome_fields?_errands (first second third : Nat) :
    ∀ message ∈ appended (errands first second third), message.fields?.isSome = true := by
  simp [errands, errand, appended, entry, Json.fields?]

theorem resultsBelow_errands {limit first second third : Nat} (hfirst : first < limit)
    (hsecond : second < limit) (hthird : third < limit) :
    ResultsBelow limit (appended (errands first second third)) := by
  simp [ResultsBelow, Below, errands, errand, appended, blocksIn, hfirst, hsecond, hthird]

theorem promptCuts_errands {first second : Nat} (hfirst : keptLength < first)
    (hsecond : keptLength < second) (third : Nat) :
    promptCuts 1 0 (appended (errands first second third))
      = [(first, (placeholder first).length), (second, (placeholder second).length)] := by
  simp [errands, errand, appended, promptCuts, blockCuts, cutsOf, longText?, promptResults,
    resultCount, blocksIn, Option.filter_some, hfirst, hsecond]

/-- With one result to keep, the first result gives way after the second round and the second one
    at the end, as they do in one trimming. -/
theorem replay_eq_trim_errands :
    (∀ message ∈ appended (errands 201 300 10), message.fields?.isSome = true) ∧
      ResultsBelow (2 ^ 53) (appended (errands 201 300 10)) ∧
      ∃ once trimmings, trim 1 (appended (errands 201 300 10)) = .ok once ∧
        once.cuts = [(201, 34), (300, 34)] ∧
        replay 1 (errands 201 300 10 ++ [.trim]) [] = .ok (once.prompt, trimmings) ∧
        (trimmings.map fun t => t.done.cuts.length).sum = 2 := by
  have hobjects := isSome_fields?_errands 201 300 10
  have hbelow : ResultsBelow (2 ^ 53) (appended (errands 201 300 10)) :=
    resultsBelow_errands (by omega) (by omega) (by omega)
  obtain ⟨once, trimmings, _, honce, hreplay, hcount, -⟩ :=
    replay_eq_trim 1 (errands 201 300 10) hobjects hbelow
  have hcuts : once.cuts = [(201, 34), (300, 34)] := by
    rw [trim_eq_ok 1 hobjects, Except.ok.injEq] at honce
    rw [← honce]
    exact promptCuts_errands (by decide) (by decide) 10
  rw [hcuts] at hcount
  exact ⟨hobjects, hbelow, once, trimmings, honce, hcuts, hreplay, hcount⟩

end Parley.Prompt.Rounds
