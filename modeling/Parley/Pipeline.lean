import Parley.Pass
set_option autoImplicit false

/-! # The compaction pipeline

Passes are kept in the order of their thresholds; of two with the same threshold, the one that was
registered first comes first. When a conversation takes up some part of the limit, all passes with
thresholds up to that part run in this order, each on what the one before it left. -/

namespace Parley

/-- Passes in the order in which they run. -/
abbrev Pipeline := List Pass

namespace Pipeline

/-- Register a pass, behind all passes whose threshold is not greater. -/
def register (p : Pass) : Pipeline → Pipeline
  | [] => [p]
  | q :: rest =>
      if p.threshold.lt q.threshold then p :: q :: rest else q :: register p rest

/-- The pipeline of some passes, registered one after the other. -/
def ofList (passes : List Pass) : Pipeline :=
  passes.foldl (fun pipeline p => register p pipeline) []

/-- The pipeline that a conversation gets unless another one is configured. -/
def standard : Pipeline :=
  ofList [Pass.pruner {}]

/-- The names of the passes. -/
def names (pipeline : Pipeline) : List String :=
  pipeline.map Pass.name

/-- The passes whose threshold has been reached. -/
def active (pipeline : Pipeline) (ratio : Number) : List Pass :=
  pipeline.filter fun p => p.threshold.le ratio

/-- Run passes one after the other. -/
def runPasses (window : Int) : List Pass → Compaction → Except Fault Compaction
  | [], done => .ok done
  | p :: rest, done => do
      let next ← p.compact done.messages window
      runPasses window rest ⟨next.messages, done.report.merge next.report⟩

/-- Run the active passes over a conversation. -/
def run (pipeline : Pipeline) (messages : List Message) (o : Occupancy) :
    Except Fault Compaction := do
  let ratio ← o.ratio
  runPasses o.window (pipeline.active (.float ratio)) ⟨messages, Report.empty⟩

end Pipeline

end Parley
