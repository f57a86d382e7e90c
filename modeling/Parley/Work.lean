set_option autoImplicit false

/-! # Work that waits

Tools act on a world that they share, and they may wait in the middle of their work, for a reply or
for some time. While one waits, others go on. So the work of a tool is a sequence of steps (`Work`):
a step changes the world at once, and after it the work waits, or is done.

Works that are gathered (`Work.gather`) are started in their order, and each runs up to the point
where it first waits. From then on each goes on when what it waits for is there. In which order that
happens is not up to the works, and other parts of the program may change the world before and in
between. Both are given from outside, as the events to come of a `Work.World`: what holds for every
world holds for every interleaving. When no more events are given, the works go on to their ends one
after another. Work that waits for ever is not modelled. -/

namespace Parley

/-- What is left to do of some work, in a world of type `σ`. -/
inductive Work (σ α : Type)
  | done (result : α)
  /-- A step, and what is left to do after it. Both depend on the world that the step finds. -/
  | step (change : σ → σ) (rest : σ → Work σ α)

namespace Work

variable {σ α β : Type}

/-- Work in one step, which never waits. -/
def atomic (act : σ → α × σ) : Work σ α :=
  .step (fun s => (act s).2) fun s => .done (act s).1

/-- Go on up to the next point where the work waits. -/
def advance : Work σ α → σ → Work σ α × σ
  | .done result, s => (.done result, s)
  | .step change rest, s => (rest s, change s)

/-- Run work to its end, with nothing else going on. -/
def run : Work σ α → σ → α × σ
  | .done result, s => (result, s)
  | .step change rest, s => (rest s).run (change s)

/-- Work with another result. -/
def map (f : α → β) : Work σ α → Work σ β
  | .done result => .done (f result)
  | .step change rest => .step change fun s => (rest s).map f

/-- Whether nothing is left to do. -/
def isDone : Work σ α → Bool
  | .done _ => true
  | .step _ _ => false

/-! ## Events -/

/-- What happens while works are under way. -/
inductive Event (σ : Type)
  /-- What the work at some place waits for is there. -/
  | wake (place : Nat)
  /-- Another part of the program changes the world. -/
  | elsewhere (change : σ → σ)

/-- The state that works find, and the events to come. -/
structure World (σ : Type) where
  state : σ
  upcoming : List (Event σ)

/-- Works that are under way, and the state that they share. -/
structure Pool (σ α : Type) where
  works : List (Work σ α)
  state : σ

/-- One event. To wake work that is done, or a place without work, changes nothing. -/
def Pool.occur (pool : Pool σ α) : Event σ → Pool σ α
  | .elsewhere change => { pool with state := change pool.state }
  | .wake place =>
      match pool.works[place]? with
      | some work =>
          let (work, state) := work.advance pool.state
          ⟨pool.works.set place work, state⟩
      | none => pool

/-- Events, one after another. -/
def Pool.after (pool : Pool σ α) (events : List (Event σ)) : Pool σ α :=
  events.foldl Pool.occur pool

/-- Events until all works are done, and the events that are left. -/
def Pool.await (pool : Pool σ α) : List (Event σ) → Pool σ α × List (Event σ)
  | [] => (pool, [])
  | event :: rest =>
      if pool.works.all isDone then (pool, event :: rest) else (pool.occur event).await rest

/-! ## Gathering -/

/-- Works are started one after another. -/
def starts (count : Nat) : List (Event σ) :=
  (List.range count).map .wake

/-- Run works to their ends, one after another. -/
def runAll : List (Work σ α) → σ → List α × σ
  | [], s => ([], s)
  | work :: rest, s =>
      let (result, s) := work.run s
      let (results, s) := runAll rest s
      (result :: results, s)

/-- The world after the changes from elsewhere that come first. -/
def World.meanwhile (world : World σ) : World σ :=
  go world.state world.upcoming
where
  go : σ → List (Event σ) → World σ
    | s, .elsewhere change :: rest => go (change s) rest
    | s, events => ⟨s, events⟩

/-- Start works, and wait for their results. -/
def runTogether (works : List (Work σ α)) (world : World σ) : List α × World σ :=
  let started := Pool.after ⟨works, world.state⟩ (starts works.length)
  let (pool, upcoming) := started.await world.upcoming
  let (results, state) := runAll pool.works pool.state
  (results, ⟨state, upcoming⟩)

/-- Run works at the same time. Before they are started there may be changes from elsewhere. Without
    works there is nothing to wait for. -/
def gather (works : List (Work σ α)) (world : World σ) : List α × World σ :=
  if works.isEmpty then ([], world) else runTogether works world.meanwhile

end Work

end Parley
