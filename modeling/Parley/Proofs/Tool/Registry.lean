import Parley.Proofs.Latest
import Parley.Proofs.Work
import Parley.Tool.Registry
import Mathlib.Data.List.Forall2
import Mathlib.Data.List.Induction
set_option autoImplicit false

/-! # A tool registry against its history

All that a registry answers is a matter of its history. A name has a tool if the last step on it was
a registration, and its tool is that of the last registration (`LastRegistered`). The names stand in
the order of the registrations that brought them in (`EnteredAt`): a registration of a name that is
taken brings in nothing, and a registration after a removal is a new one. Running a tool is no step
on any name.

The bridge for the tools is `get?_run`. The order is kept by every step in a form that says where two
names came in (`Before`). Since a name comes in once at most (`EnteredAt.unique`), this is the order
of all the places where they could have come in.

Running a tool gives what its handler brings back, unless there is an argument with the name that
stands for the tool itself: the handler does not run then (`execute_self_argument`). -/

namespace Parley.Tool.Registry

variable {σ : Type}

/-! ## Runs -/

/-- What is done with a registry. -/
inductive Step (σ : Type)
  | register (tool : Tool σ)
  | unregister (name : String)
  | execute (name : String) (arguments : Arguments)

/-- The name whose tool a step puts in place or removes. -/
def Step.target? : Step σ → Option String
  | .register tool => some tool.name
  | .unregister name => some name
  | .execute _ _ => none

/-- The tool that a step puts in place. -/
def Step.tool? : Step σ → Option (Tool σ)
  | .register tool => some tool
  | _ => none

theorem Step.tool?_eq_some_iff {next : Step σ} {tool : Tool σ} :
    next.tool? = some tool ↔ next = .register tool := by
  cases next <;> simp [Step.tool?]

/-- A registry, and the world that its tools act on. -/
structure Session (σ : Type) where
  registry : Registry σ
  world : σ

/-- Do one step. -/
def Session.step (session : Session σ) : Step σ → Session σ
  | .register tool => { session with registry := session.registry.register tool }
  | .unregister name => { session with registry := session.registry.unregister name }
  | .execute name arguments =>
      { session with world := (session.registry.execute name arguments session.world).2 }

/-- Do steps one after another, on an empty registry. -/
def run (history : List (Step σ)) (start : σ) : Session σ :=
  history.foldl Session.step ⟨[], start⟩

theorem run_append_singleton (history : List (Step σ)) (next : Step σ) (start : σ) :
    run (history ++ [next]) start = (run history start).step next := by
  unfold run
  rw [List.foldl_append]
  rfl

/-- A step changes the tool of its own name only. -/
theorem get?_step (session : Session σ) (next : Step σ) (name : String) :
    (session.step next).registry.get? name
      = if next.target? = some name then next.tool? else session.registry.get? name := by
  cases next with
  | register tool =>
      simp only [Step.target?, Step.tool?, Option.some.injEq]
      exact Ordered.find?_insert _ _ _ _
  | unregister other =>
      simp only [Step.target?, Step.tool?, Option.some.injEq]
      exact Ordered.find?_erase _ _ _
  | execute other arguments => rfl

/-- What a step does to the names. -/
theorem names_step (session : Session σ) (next : Step σ) :
    (session.step next).registry.names = match next with
      | .register tool =>
          if tool.name ∈ session.registry.names then session.registry.names
          else session.registry.names ++ [tool.name]
      | .unregister name => session.registry.names.filter fun other => decide (other ≠ name)
      | .execute _ _ => session.registry.names := by
  cases next with
  | register tool => exact Ordered.keys_insert _ _ _
  | unregister name => exact Ordered.keys_erase _ _
  | execute name arguments => rfl

theorem distinct_run (history : List (Step σ)) (start : σ) :
    Ordered.Distinct (run history start).registry := by
  induction history using List.reverseRecOn with
  | nil => exact List.nodup_nil
  | append_singleton history next ih =>
      rw [run_append_singleton]
      cases next with
      | register tool => exact Ordered.distinct_insert _ _ ih
      | unregister name => exact Ordered.distinct_erase _ ih
      | execute name arguments => exact ih

/-! ## The last registration of a name -/

/-- The last step on a name registered a tool. -/
def LastRegistered (history : List (Step σ)) (name : String) (tool : Tool σ) : Prop :=
  ∃ before after, history = before ++ .register tool :: after ∧ tool.name = name ∧
    ∀ later ∈ after, later.target? ≠ some name

theorem LastRegistered.name_eq {history : List (Step σ)} {name : String} {tool : Tool σ}
    (h : LastRegistered history name tool) : tool.name = name := by
  obtain ⟨before, after, -, hname, -⟩ := h
  exact hname

theorem not_lastRegistered_nil (name : String) (tool : Tool σ) :
    ¬ LastRegistered [] name tool := by
  rintro ⟨before, after, hsplit, -, -⟩
  simp at hsplit

theorem lastRegistered_iff {history : List (Step σ)} {name : String} {tool : Tool σ} :
    LastRegistered history name tool
      ↔ ∃ before last after, history = before ++ last :: after ∧
          (last = .register tool ∧ tool.name = name) ∧
          ∀ later ∈ after, later.target? ≠ some name := by
  constructor
  · rintro ⟨before, after, hsplit, hname, hafter⟩
    exact ⟨before, .register tool, after, hsplit, ⟨rfl, hname⟩, hafter⟩
  · rintro ⟨before, last, after, hsplit, ⟨rfl, hname⟩, hafter⟩
    exact ⟨before, after, hsplit, hname, hafter⟩

/-- The last registration is the last step, or the one before it if the last step is on another
    name. -/
theorem lastRegistered_append_singleton {history : List (Step σ)} {next : Step σ} {name : String}
    {tool : Tool σ} :
    LastRegistered (history ++ [next]) name tool
      ↔ next = .register tool ∧ tool.name = name ∨
        next.target? ≠ some name ∧ LastRegistered history name tool := by
  simp only [lastRegistered_iff]
  exact exists_latest_append_singleton

/-- **The tool of a name is that of its last registration.** -/
theorem get?_run {history : List (Step σ)} {start : σ} {name : String} {tool : Tool σ} :
    (run history start).registry.get? name = some tool ↔ LastRegistered history name tool := by
  induction history using List.reverseRecOn with
  | nil => simp [run, get?, not_lastRegistered_nil]
  | append_singleton history next ih =>
      rw [run_append_singleton, get?_step, lastRegistered_append_singleton, ← ih]
      by_cases htarget : next.target? = some name
      · rw [if_pos htarget, Step.tool?_eq_some_iff]
        constructor
        · rintro rfl
          exact .inl ⟨rfl, Option.some.inj htarget⟩
        · rintro (⟨rfl, -⟩ | ⟨hother, -⟩)
          · rfl
          · exact absurd htarget hother
      · rw [if_neg htarget]
        constructor
        · exact fun h => .inr ⟨htarget, h⟩
        · rintro (⟨rfl, hname⟩ | ⟨-, h⟩)
          · exact absurd (congrArg some hname) htarget
          · exact h

theorem mem_names_run {history : List (Step σ)} {start : σ} {name : String} :
    name ∈ (run history start).registry.names ↔ ∃ tool, LastRegistered history name tool := by
  unfold names
  rw [Ordered.mem_keys_iff]
  exact exists_congr fun _ => get?_run

/-! ## Where a name came in -/

/-- A name that was absent was registered at a place of the history, and has not been removed
    since. -/
def EnteredAt (history : List (Step σ)) (name : String) (place : Nat) : Prop :=
  ∃ before tool after, history = before ++ .register tool :: after ∧ before.length = place ∧
    tool.name = name ∧ (∀ other, ¬ LastRegistered before name other) ∧ .unregister name ∉ after

theorem EnteredAt.lt_length {history : List (Step σ)} {name : String} {place : Nat}
    (h : EnteredAt history name place) : place < history.length := by
  obtain ⟨before, tool, after, rfl, rfl, -⟩ := h
  simp

/-- A name that came in stays until it is removed. -/
theorem EnteredAt.append_singleton {history : List (Step σ)} {name : String} {place : Nat}
    (h : EnteredAt history name place) {next : Step σ} (hnext : next ≠ .unregister name) :
    EnteredAt (history ++ [next]) name place := by
  obtain ⟨before, tool, after, rfl, hplace, hname, habsent, hafter⟩ := h
  refine ⟨before, tool, after ++ [next], by simp, hplace, hname, habsent, ?_⟩
  intro hmem
  rcases List.mem_append.1 hmem with hold | hnew
  · exact hafter hold
  · exact hnext (List.mem_singleton.1 hnew).symm

/-- A name that was registered and not removed since has a last registration. -/
theorem exists_lastRegistered (before : List (Step σ)) {after : List (Step σ)} {tool : Tool σ}
    (h : .unregister tool.name ∉ after) :
    ∃ last, LastRegistered (before ++ .register tool :: after) tool.name last := by
  induction after using List.reverseRecOn with
  | nil => exact ⟨tool, lastRegistered_append_singleton.2 (.inl ⟨rfl, rfl⟩)⟩
  | append_singleton after next ih =>
      have hassoc : before ++ .register tool :: (after ++ [next])
          = (before ++ .register tool :: after) ++ [next] := by
        simp
      obtain ⟨last, hlast⟩ := ih fun hmem => h (List.mem_append_left _ hmem)
      rw [hassoc]
      by_cases htarget : next.target? = some tool.name
      · cases next with
        | register other =>
            have hname : other.name = tool.name := Option.some.inj htarget
            exact ⟨other, lastRegistered_append_singleton.2 (.inl ⟨rfl, hname⟩)⟩
        | unregister name =>
            have hname : name = tool.name := Option.some.inj htarget
            exact absurd (by simp [hname]) h
        | execute name arguments => cases htarget
      · exact ⟨last, lastRegistered_append_singleton.2 (.inr ⟨htarget, hlast⟩)⟩

/-- No name comes in again after it came in. -/
theorem EnteredAt.not_lt {history : List (Step σ)} {name : String} {place other : Nat}
    (h : EnteredAt history name place) (hother : EnteredAt history name other) :
    ¬ place < other := by
  intro hlt
  obtain ⟨before, tool, after, hsplit, rfl, rfl, -, hkept⟩ := h
  obtain ⟨longer, again, rest, hagain, rfl, -, habsent, -⟩ := hother
  rw [hsplit] at hagain
  rcases List.append_eq_append_iff.1 hagain with ⟨middle, hlonger, hmiddle⟩ | ⟨middle, hbefore, -⟩
  · cases middle with
    | nil => simp [hlonger] at hlt
    | cons first middle =>
        obtain ⟨rfl, rfl⟩ := List.cons.inj hmiddle
        have hsince : .unregister tool.name ∉ middle :=
          fun hmem => hkept (List.mem_append_left _ hmem)
        obtain ⟨last, hlast⟩ := exists_lastRegistered before hsince
        exact habsent last (hlonger ▸ hlast)
  · rw [hbefore, List.length_append] at hlt
    omega

/-- A name comes in once at most. -/
theorem EnteredAt.unique {history : List (Step σ)} {name : String} {place other : Nat}
    (h : EnteredAt history name place) (hother : EnteredAt history name other) : place = other :=
  Nat.le_antisymm (Nat.not_lt.1 (hother.not_lt h)) (Nat.not_lt.1 (h.not_lt hother))

/-- One name came in before another. -/
def Before (history : List (Step σ)) (name other : String) : Prop :=
  ∃ i j, EnteredAt history name i ∧ EnteredAt history other j ∧ i < j

theorem Before.append_singleton {history : List (Step σ)} {name other : String}
    (h : Before history name other) {next : Step σ} (hname : next ≠ .unregister name)
    (hother : next ≠ .unregister other) : Before (history ++ [next]) name other := by
  obtain ⟨i, j, hi, hj, hlt⟩ := h
  exact ⟨i, j, hi.append_singleton hname, hj.append_singleton hother, hlt⟩

/-- The names of a list came in, one after the other. -/
structure InOrder (history : List (Step σ)) (names : List String) : Prop where
  entered : ∀ name ∈ names, ∃ place, EnteredAt history name place
  before : names.Pairwise (Before history)

theorem InOrder.append_singleton {history : List (Step σ)} {names : List String}
    (h : InOrder history names) {next : Step σ}
    (hnext : ∀ name ∈ names, next ≠ .unregister name) : InOrder (history ++ [next]) names where
  entered name hname := by
    obtain ⟨place, hplace⟩ := h.entered name hname
    exact ⟨place, hplace.append_singleton (hnext name hname)⟩
  before := h.before.imp_of_mem fun hname hother hbefore =>
    hbefore.append_singleton (hnext _ hname) (hnext _ hother)

theorem InOrder.sublist {history : List (Step σ)} {names kept : List String}
    (h : InOrder history names) (hkept : kept.Sublist names) : InOrder history kept where
  entered name hname := h.entered name (hkept.subset hname)
  before := h.before.sublist hkept

/-- A name that was absent comes in behind all others. -/
theorem InOrder.append_new {history : List (Step σ)} {names : List String}
    (h : InOrder history names) {tool : Tool σ}
    (habsent : ∀ other, ¬ LastRegistered history tool.name other) :
    InOrder (history ++ [.register tool]) (names ++ [tool.name]) := by
  have hold : InOrder (history ++ [.register tool]) names :=
    h.append_singleton fun _ _ heq => by cases heq
  have hnew : EnteredAt (history ++ [.register tool]) tool.name history.length :=
    ⟨history, tool, [], rfl, rfl, rfl, habsent, by simp⟩
  constructor
  · intro name hname
    rcases List.mem_append.1 hname with hmem | hmem
    · exact hold.entered name hmem
    · obtain rfl := List.mem_singleton.1 hmem
      exact ⟨_, hnew⟩
  · rw [List.pairwise_append]
    refine ⟨hold.before, List.pairwise_singleton _ _, ?_⟩
    intro name hname other hother
    obtain rfl := List.mem_singleton.1 hother
    obtain ⟨place, hplace⟩ := h.entered name hname
    exact ⟨place, history.length, hplace.append_singleton (by simp), hnew, hplace.lt_length⟩

theorem inOrder_names_run (history : List (Step σ)) (start : σ) :
    InOrder history (run history start).registry.names := by
  induction history using List.reverseRecOn with
  | nil => exact ⟨by simp [run, names, Ordered.keys], List.Pairwise.nil⟩
  | append_singleton history next ih =>
      rw [run_append_singleton, names_step]
      cases next with
      | register tool =>
          dsimp only
          split
          · exact ih.append_singleton (by simp)
          · next habsent =>
              refine ih.append_new ?_
              intro other hother
              exact habsent (mem_names_run.2 ⟨other, hother⟩)
      | unregister name =>
          refine (ih.sublist List.filter_sublist).append_singleton ?_
          intro other hother heq
          cases heq
          simp at hother
      | execute name arguments => exact ih.append_singleton (by simp)

/-! ## Definitions -/

/-- The definitions belong to the names, one by one, each made from the tool registered last. -/
theorem forall₂_names_definitions_run (history : List (Step σ)) (start : σ) :
    List.Forall₂
      (fun name definition => ∃ tool, LastRegistered history name tool ∧
        definition = tool.definition)
      (run history start).registry.names (run history start).registry.definitions := by
  unfold names definitions Ordered.keys
  rw [List.forall₂_map_left_iff, List.forall₂_map_right_iff, List.forall₂_same]
  intro entry hentry
  have hget : (run history start).registry.get? entry.1 = some entry.2 :=
    Ordered.find?_of_mem (distinct_run history start) hentry
  exact ⟨entry.2, get?_run.1 hget, rfl⟩

/-! ## Running a tool -/

/-- What a call brings back: the result of the handler, or a failure with the text of the error. -/
def outcome : Except String Result × σ → Result × σ
  | (.ok result, world) => (result, world)
  | (.error text, world) => (.failure text, world)

theorem work_of_get?_eq_none {registry : Registry σ} {name : String}
    (h : registry.get? name = none) (arguments : Arguments) :
    registry.work name arguments = .done (.failure ("Tool '" ++ name ++ "' not found")) := by
  unfold work
  rw [h]

theorem work_of_get?_eq_some {registry : Registry σ} {name : String} {tool : Tool σ}
    (h : registry.get? name = some tool) {arguments : Arguments}
    (hown : Ordered.find? ownName arguments = none) :
    registry.work name arguments = (tool.handler arguments).map Result.ofHandler := by
  have htool : tool.execute arguments = tool.handler arguments := by
    unfold Tool.execute
    rw [hown]
    rfl
  unfold work
  rw [h]
  dsimp only
  rw [htool]

theorem run_map_ofHandler (work : Work σ (Except String Result)) (world : σ) :
    (work.map Result.ofHandler).run world = outcome (work.run world) := by
  rw [Work.run_map]
  rcases work.run world with ⟨_ | _, _⟩ <;> rfl

/-! ## The registry after any history -/

/-- What a registry answers is what its history says. -/
structure Follows (history : List (Step σ)) (registry : Registry σ) : Prop where
  nodup : registry.names.Nodup
  mem_names : ∀ name, name ∈ registry.names ↔ ∃ tool, LastRegistered history name tool
  get : ∀ name tool, registry.get? name = some tool ↔ LastRegistered history name tool
  entered : ∀ name ∈ registry.names, ∃ place, EnteredAt history name place
  order : registry.names.Pairwise fun name other =>
    ∀ i j, EnteredAt history name i → EnteredAt history other j → i < j
  names_definitions : registry.definitions.map Definition.name = registry.names
  definitions : List.Forall₂
    (fun name definition => ∃ tool, LastRegistered history name tool ∧
      definition = tool.definition)
    registry.names registry.definitions

theorem follows_run (history : List (Step σ)) (start : σ) :
    Follows history (run history start).registry where
  nodup := distinct_run history start
  mem_names _ := mem_names_run
  get _ _ := get?_run
  entered := (inOrder_names_run history start).entered
  order := by
    refine (inOrder_names_run history start).before.imp ?_
    rintro name other ⟨i, j, hi, hj, hlt⟩ i' j' hi' hj'
    rwa [hi'.unique hi, hj'.unique hj]
  names_definitions := by
    symm
    rw [← List.forall₂_eq_eq_eq, List.forall₂_map_right_iff]
    refine (forall₂_names_definitions_run history start).imp ?_
    rintro name definition ⟨tool, hlast, rfl⟩
    exact hlast.name_eq.symm
  definitions := forall₂_names_definitions_run history start

/-- **A registry follows its history.** After any steps on an empty registry, its names, tools and
    definitions are those that the history says. Registering a name that is there keeps the places of
    all names, and removing one before it is registered again moves it to the end. To run a tool
    leaves the registry as it is, and gives a failure that names the tool if there is none, and else
    what the handler registered last brings back, if no argument has the name that stands for the
    tool itself. This is so when the tool runs alone, and also of its work among others. -/
theorem registry_of_history (history : List (Step σ)) (start : σ) :
    let registry := (run history start).registry
    Follows history registry ∧
    (∀ tool : Tool σ, tool.name ∈ registry.names →
      (run (history ++ [.register tool]) start).registry.names = registry.names) ∧
    (∀ tool : Tool σ,
      (run (history ++ [.unregister tool.name, .register tool]) start).registry.names
        = (registry.names.filter fun name => decide (name ≠ tool.name)) ++ [tool.name]) ∧
    ∀ name arguments world,
      (run (history ++ [.execute name arguments]) start).registry = registry ∧
      ((∀ tool, ¬ LastRegistered history name tool) →
        registry.execute name arguments world
          = (.failure ("Tool '" ++ name ++ "' not found"), world)) ∧
      ∀ tool, LastRegistered history name tool → Ordered.find? ownName arguments = none →
        registry.execute name arguments world = outcome ((tool.handler arguments).run world) ∧
        registry.work name arguments = (tool.handler arguments).map Result.ofHandler := by
  intro registry
  refine ⟨follows_run history start, ?_, ?_, ?_⟩
  · intro tool hmem
    rw [run_append_singleton, names_step]
    exact if_pos hmem
  · intro tool
    have htwo : history ++ [.unregister tool.name, .register tool]
        = (history ++ [.unregister tool.name]) ++ [.register tool] := by
      simp
    have hgone : tool.name ∉ registry.names.filter fun name => decide (name ≠ tool.name) := by
      simp
    rw [htwo, run_append_singleton, names_step, run_append_singleton, names_step]
    exact if_neg hgone
  · intro name arguments world
    refine ⟨by rw [run_append_singleton]; rfl, ?_, ?_⟩
    · intro habsent
      have hnone : registry.get? name = none := by
        rw [Option.eq_none_iff_forall_ne_some]
        intro tool htool
        exact habsent tool (get?_run.1 htool)
      rw [execute, work_of_get?_eq_none hnone, Work.run]
    · intro tool hlast hown
      have hget : registry.get? name = some tool := get?_run.2 hlast
      have hwork := work_of_get?_eq_some hget hown
      refine ⟨?_, hwork⟩
      rw [execute, hwork, run_map_ofHandler]

/-- A tool that counts its calls and always succeeds. -/
def counting (name description : String) : Tool Nat :=
  ⟨name, description, [],
    fun _ => .atomic fun calls => (.ok { success := true, output := "ok" }, calls + 1)⟩

/-- A tool that counts its calls and always raises an error. -/
def raising (name text : String) : Tool Nat :=
  ⟨name, "Fail.", [], fun _ => .atomic fun calls => (.error text, calls + 1)⟩

/-- Two names come in, the first is registered again, and the second removed. -/
def replacing : List (Step Nat) := [
  .register (counting "a" "Count."), .register (counting "b" "Count."),
  .execute "a" [], .register (raising "a" "no"), .unregister "b"]

theorem registry_of_history_replacing :
    let registry := (run replacing 0).registry
    registry.get? "a" = some (raising "a" "no") ∧
    (run (replacing ++ [.register (counting "a" "Again.")]) 0).registry.names = registry.names ∧
    (run (replacing ++ [.unregister "a", .register (counting "a" "Again.")]) 0).registry.names
      = (registry.names.filter fun name => decide (name ≠ "a")) ++ ["a"] ∧
    registry.execute "b" [] 1 = (.failure ("Tool '" ++ "b" ++ "' not found"), 1) ∧
    registry.execute "a" [("x", .bool true)] 1 = (.failure "no", 2) := by
  have hlast : LastRegistered replacing "a" (raising "a" "no") := by
    refine ⟨replacing.take 3, [.unregister "b"], rfl, rfl, ?_⟩
    simp [Step.target?]
  obtain ⟨hfollows, hagain, hmoved, hexecute⟩ := registry_of_history replacing 0
  have hmem : "a" ∈ (run replacing 0).registry.names := (hfollows.mem_names "a").2 ⟨_, hlast⟩
  have habsent : ∀ tool, ¬ LastRegistered replacing "b" tool := by
    intro tool htool
    have hget := (hfollows.get "b" tool).2 htool
    cases hget
  exact ⟨(hfollows.get "a" _).2 hlast, hagain (counting "a" "Again.") hmem,
    hmoved (counting "a" "Again."), (hexecute "b" [] 1).2.1 habsent,
    ((hexecute "a" [("x", .bool true)] 1).2.2 _ hlast rfl).1⟩

/-- With an argument that has the name of the tool itself, a handler that would succeed is not
    run. -/
theorem execute_self_argument :
    let arguments : Arguments := [("self", .number (.int 1))]
    let tool := counting "t" "Count."
    (tool.handler arguments).run 0 = (.ok { success := true, output := "ok" }, 1) ∧
    (run [.register tool] 0).registry.execute "t" arguments 0
      = (.failure "Tool.execute() got multiple values for argument 'self'", 0) := by
  exact ⟨rfl, by decide⟩

end Parley.Tool.Registry
