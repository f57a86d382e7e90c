import Parley.Work
import Mathlib.Data.List.Basic
set_option autoImplicit false

/-! # Works that go on together

Gathered works are interleaved as the events of a world say. What they come to is a matter of the
events alone (`comesTo_gather`), and every interleaving that leaves no work undone is one that some
world brings about (`exists_gather_of_comesTo`).

Each work comes to what it comes to alone in the states that it meets (`getElem?_works_after`): the
others have an effect on it through these states, and in no other way. So a result can be changed
before the works are gathered as well as after (`gather_map`), and works that never wait are not
interleaved at all (`gather_of_prompt`). -/

namespace Parley.Work

variable {σ α β : Type}

/-! ## Another result -/

@[simp] theorem isDone_map (f : α → β) (work : Work σ α) : (work.map f).isDone = work.isDone := by
  cases work <;> rfl

theorem advance_map (f : α → β) (work : Work σ α) (s : σ) :
    (work.map f).advance s = ((work.advance s).1.map f, (work.advance s).2) := by
  cases work <;> rfl

theorem run_map (f : α → β) (work : Work σ α) (s : σ) :
    (work.map f).run s = (f (work.run s).1, (work.run s).2) := by
  induction work generalizing s with
  | done result => rfl
  | step change rest ih => exact ih s (change s)

theorem map_map {γ : Type} (f : α → β) (g : β → γ) (work : Work σ α) :
    (work.map f).map g = work.map (g ∘ f) := by
  induction work with
  | done result => rfl
  | step change rest ih => exact congrArg (Work.step change) (funext ih)

theorem runAll_map (f : α → β) (works : List (Work σ α)) (s : σ) :
    runAll (works.map (Work.map f)) s = ((runAll works s).1.map f, (runAll works s).2) := by
  induction works generalizing s with
  | nil => rfl
  | cons work rest ih => simp only [List.map_cons, runAll, run_map, ih]

/-- A pool whose works have another result. -/
def Pool.map (f : α → β) (pool : Pool σ α) : Pool σ β :=
  ⟨pool.works.map (Work.map f), pool.state⟩

theorem occur_map (f : α → β) (pool : Pool σ α) (event : Event σ) :
    (pool.map f).occur event = (pool.occur event).map f := by
  cases event with
  | elsewhere change => rfl
  | wake place =>
      unfold Pool.occur Pool.map
      simp only [List.getElem?_map]
      cases pool.works[place]? with
      | none => rfl
      | some work => simp only [Option.map_some, advance_map, List.map_set]

theorem after_cons (pool : Pool σ α) (event : Event σ) (rest : List (Event σ)) :
    pool.after (event :: rest) = (pool.occur event).after rest :=
  rfl

theorem after_append (pool : Pool σ α) (front rest : List (Event σ)) :
    pool.after (front ++ rest) = (pool.after front).after rest :=
  List.foldl_append

theorem after_map (f : α → β) (pool : Pool σ α) (events : List (Event σ)) :
    (pool.map f).after events = (pool.after events).map f := by
  induction events generalizing pool with
  | nil => rfl
  | cons event rest ih => rw [after_cons, after_cons, occur_map, ih]

theorem await_map (f : α → β) (pool : Pool σ α) (events : List (Event σ)) :
    (pool.map f).await events = ((pool.await events).1.map f, (pool.await events).2) := by
  induction events generalizing pool with
  | nil => rfl
  | cons event rest ih =>
      have hall : (pool.map f).works.all isDone = pool.works.all isDone := by
        simp [Pool.map, Function.comp_def]
      rw [Pool.await, Pool.await, hall, occur_map, ih]
      split <;> rfl

theorem runTogether_map (f : α → β) (works : List (Work σ α)) (world : World σ) :
    runTogether (works.map (Work.map f)) world
      = ((runTogether works world).1.map f, (runTogether works world).2) := by
  have hpool : (⟨works.map (Work.map f), world.state⟩ : Pool σ β)
      = Pool.map f ⟨works, world.state⟩ := rfl
  unfold runTogether
  simp only [List.length_map, hpool, after_map, await_map]
  rw [Pool.map, runAll_map]

/-- Gathered works whose results are changed come to the changed results. -/
theorem gather_map (f : α → β) (works : List (Work σ α)) (world : World σ) :
    gather (works.map (Work.map f)) world
      = ((gather works world).1.map f, (gather works world).2) := by
  cases works with
  | nil => rfl
  | cons work rest => exact runTogether_map f (work :: rest) world.meanwhile

/-! ## One result for each work -/

theorem length_works_occur (pool : Pool σ α) (event : Event σ) :
    (pool.occur event).works.length = pool.works.length := by
  cases event with
  | elsewhere change => rfl
  | wake place =>
      unfold Pool.occur
      dsimp only
      split
      · exact List.length_set
      · rfl

theorem length_works_await (pool : Pool σ α) (events : List (Event σ)) :
    (pool.await events).1.works.length = pool.works.length := by
  induction events generalizing pool with
  | nil => rfl
  | cons event rest ih =>
      rw [Pool.await]
      split
      · rfl
      · rw [ih, length_works_occur]

theorem length_works_after (pool : Pool σ α) (events : List (Event σ)) :
    (pool.after events).works.length = pool.works.length := by
  induction events generalizing pool with
  | nil => rfl
  | cons event rest ih => rw [after_cons, ih, length_works_occur]

theorem length_runAll (works : List (Work σ α)) (s : σ) :
    (runAll works s).1.length = works.length := by
  induction works generalizing s with
  | nil => rfl
  | cons work rest ih => exact congrArg (· + 1) (ih _)

theorem length_gather (works : List (Work σ α)) (world : World σ) :
    (gather works world).1.length = works.length := by
  cases works with
  | nil => rfl
  | cons work rest =>
      show (runTogether (work :: rest) world.meanwhile).1.length = _
      unfold runTogether
      dsimp only
      rw [length_runAll, length_works_await, length_works_after]

@[simp] theorem gather_nil (world : World σ) :
    gather ([] : List (Work σ α)) world = ([], world) :=
  rfl

theorem gather_of_ne_nil {works : List (Work σ α)} (h : works ≠ []) (world : World σ) :
    gather works world = runTogether works world.meanwhile :=
  if_neg (mt List.isEmpty_iff.1 h)

/-! ## The states that a work meets -/

/-- What is left of some work after it has gone on in some states. -/
def through (work : Work σ α) (states : List σ) : Work σ α :=
  states.foldl (fun work s => (work.advance s).1) work

/-- An event wakes the work at a place. -/
def Event.wakes (place : Nat) : Event σ → Bool
  | .wake other => decide (other = place)
  | .elsewhere _ => false

/-- The states in which the work at a place goes on. -/
def Pool.met (place : Nat) (pool : Pool σ α) : List (Event σ) → List σ
  | [] => []
  | event :: rest =>
      (if event.wakes place then [pool.state] else []) ++ (pool.occur event).met place rest

theorem getElem?_works_occur (pool : Pool σ α) (event : Event σ) (place : Nat) :
    (pool.occur event).works[place]?
      = pool.works[place]?.map fun work =>
          if event.wakes place then (work.advance pool.state).1 else work := by
  cases event with
  | elsewhere change => exact Option.map_id'.symm
  | wake other =>
      unfold Pool.occur Event.wakes
      by_cases hplace : other = place
      · subst hplace
        cases hwork : pool.works[other]? with
        | none => simp [hwork]
        | some work => simp [hwork, List.getElem?_set_self']
      · cases hother : pool.works[other]? with
        | none => simp [hplace, hother]
        | some work => simp [hplace, hother]

/-- The other works have an effect on a work through the states that it meets only. -/
theorem getElem?_works_after (pool : Pool σ α) (events : List (Event σ)) (place : Nat) :
    (pool.after events).works[place]?
      = pool.works[place]?.map fun work => work.through (pool.met place events) := by
  induction events generalizing pool with
  | nil => exact Option.map_id'.symm
  | cons event rest ih =>
      rw [after_cons, ih, getElem?_works_occur, Option.map_map]
      congr 1
      funext work
      rw [Pool.met]
      by_cases hwakes : event.wakes place = true
      · simp [hwakes, through]
      · simp [hwakes, through]

/-! ## Interleavings -/

/-- What happens around some works: changes before they are started, their starts, more events. -/
def schedule (changes : List (σ → σ)) (count : Nat) (events : List (Event σ)) : List (Event σ) :=
  changes.map .elsewhere ++ (starts count ++ events)

/-- Works that are started in a state, after some changes of it, and go on as some events say come
    to results, and leave a state behind. -/
def ComesTo (works : List (Work σ α)) (s : σ) (changes : List (σ → σ)) (events : List (Event σ))
    (results : List α) (s' : σ) : Prop :=
  Pool.after ⟨works, s⟩ (schedule changes works.length events) = ⟨results.map .done, s'⟩

theorem meanwhile_append_wake (s : σ) (changes : List (σ → σ)) (place : Nat)
    (events : List (Event σ)) (works : List (Work σ α)) :
    ∃ s', World.meanwhile ⟨s, changes.map .elsewhere ++ .wake place :: events⟩
        = ⟨s', .wake place :: events⟩ ∧
      Pool.after ⟨works, s⟩ (changes.map .elsewhere) = ⟨works, s'⟩ := by
  unfold World.meanwhile
  induction changes generalizing s with
  | nil => exact ⟨s, rfl, rfl⟩
  | cons change rest ih => exact ih (change s)

theorem after_of_all_isDone {pool : Pool σ α} (h : pool.works.all isDone = true)
    (events : List (Event σ)) : (pool.after events).works = pool.works := by
  refine List.ext_getElem? fun place => ?_
  rw [getElem?_works_after]
  cases hwork : pool.works[place]? with
  | none => rfl
  | some work =>
      have hdone := List.all_eq_true.1 h work (List.mem_of_getElem? hwork)
      cases work with
      | step change rest => cases hdone
      | done result =>
          have hthrough : ∀ states : List σ, through (.done result : Work σ α) states
              = .done result := by
            intro states
            induction states with
            | nil => rfl
            | cons s states ih => exact ih
          rw [Option.map_some, hthrough]

theorem works_await (pool : Pool σ α) (events : List (Event σ))
    (h : (pool.after events).works.all isDone = true) :
    (pool.await events).1.works = (pool.after events).works := by
  induction events generalizing pool with
  | nil => rfl
  | cons event rest ih =>
      rw [Pool.await]
      split
      · next hall => exact (after_of_all_isDone hall _).symm
      · exact ih (pool.occur event) h

theorem runAll_done (results : List α) (s : σ) :
    runAll (results.map .done) s = (results, s) := by
  induction results with
  | nil => rfl
  | cons result rest ih => simp only [List.map_cons, runAll, run, ih]

/-- **Every interleaving is one that some world brings about.** -/
theorem exists_gather_of_comesTo {works : List (Work σ α)} {s s' : σ} {changes : List (σ → σ)}
    {events : List (Event σ)} {results : List α}
    (h : ComesTo works s changes events results s') :
    ∃ world : World σ, world.state = s ∧ (gather works world).1 = results := by
  by_cases hworks : works = []
  · subst hworks
    have hlength := length_works_after (⟨[], s⟩ : Pool σ α) (schedule changes 0 events)
    rw [show Pool.after ⟨[], s⟩ (schedule changes 0 events) = _ from h, List.length_map] at hlength
    exact ⟨⟨s, []⟩, rfl, (List.eq_nil_of_length_eq_zero hlength).symm⟩
  -- to wake a place without work tells the changes before the start from those after it
  refine ⟨⟨s, changes.map .elsewhere ++ .wake works.length :: events⟩, rfl, ?_⟩
  obtain ⟨begun, hmeanwhile, hchanges⟩ :=
    meanwhile_append_wake s changes works.length events works
  rw [gather_of_ne_nil hworks, hmeanwhile]
  have hidle : (Pool.after ⟨works, begun⟩ (starts works.length)).occur (.wake works.length)
      = Pool.after ⟨works, begun⟩ (starts works.length) := by
    have hnone : (Pool.after ⟨works, begun⟩ (starts works.length)).works[works.length]? = none :=
      List.getElem?_eq_none (Nat.le_of_eq (length_works_after _ _))
    unfold Pool.occur
    simp only [hnone]
  have hafter : (Pool.after ⟨works, begun⟩ (starts works.length)).after
      (.wake works.length :: events) = ⟨results.map .done, s'⟩ := by
    rw [after_cons, hidle, ← after_append, ← hchanges, ← after_append]
    exact h
  have hdone : ((Pool.after ⟨works, begun⟩ (starts works.length)).await
      (.wake works.length :: events)).1.works = results.map .done := by
    rw [works_await, hafter]
    rw [hafter]
    simp [isDone]
  unfold runTogether
  dsimp only
  rw [hdone, runAll_done]

/-! ## Works that never wait -/

/-- Work that is done with its first step. -/
def Prompt (work : Work σ α) : Prop :=
  ∀ s, (work.advance s).1.isDone = true

theorem Prompt.advance_eq {work : Work σ α} (h : work.Prompt) (s : σ) :
    work.advance s = (.done (work.run s).1, (work.run s).2) := by
  cases work with
  | done result => rfl
  | step change rest =>
      have hdone := h s
      simp only [advance, run] at hdone ⊢
      cases hrest : rest s with
      | done result => rfl
      | step change' rest' =>
          rw [hrest] at hdone
          cases hdone

theorem after_of_prompt {works : List (Work σ α)} (h : ∀ work ∈ works, work.Prompt)
    (front : List α) (s : σ) :
    Pool.after ⟨front.map .done ++ works, s⟩
        ((List.range' front.length works.length).map .wake)
      = ⟨(front ++ (runAll works s).1).map .done, (runAll works s).2⟩ := by
  induction works generalizing front s with
  | nil => simp [runAll, Pool.after]
  | cons work rest ih =>
      obtain ⟨hwork, hrest⟩ := List.forall_mem_cons.1 h
      have hoccur : Pool.occur ⟨front.map .done ++ work :: rest, s⟩ (.wake front.length)
          = ⟨(front ++ [(work.run s).1]).map .done ++ rest, (work.run s).2⟩ := by
        simp [Pool.occur, hwork.advance_eq]
      have hlater := ih hrest (front ++ [(work.run s).1]) (work.run s).2
      rw [List.length_cons, List.range'_succ, List.map_cons, after_cons, hoccur]
      simpa [runAll] using hlater

/-- **Works that never wait are run one after another**, and no event happens in between. -/
theorem gather_of_prompt {works : List (Work σ α)} (h : ∀ work ∈ works, work.Prompt)
    (hsome : works ≠ []) (world : World σ) :
    gather works world
      = ((runAll works world.meanwhile.state).1,
          { world.meanwhile with state := (runAll works world.meanwhile.state).2 }) := by
  rw [gather_of_ne_nil hsome]
  generalize world.meanwhile = begun
  have hstarted := after_of_prompt h [] begun.state
  rw [List.length_nil, ← List.range_eq_range'] at hstarted
  have hawait : ∀ (results : List α) (s : σ),
      Pool.await ⟨results.map .done, s⟩ begun.upcoming
        = (⟨results.map .done, s⟩, begun.upcoming) := by
    intro results s
    cases begun.upcoming with
    | nil => rfl
    | cons event rest => exact if_pos (by simp [isDone])
  unfold runTogether starts
  dsimp only
  rw [show Pool.after ⟨works, begun.state⟩ _ = _ from hstarted]
  simp only [List.nil_append, hawait, runAll_done]

end Parley.Work
