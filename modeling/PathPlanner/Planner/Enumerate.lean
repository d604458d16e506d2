import PathPlanner.Planner.Search

set_option autoImplicit false

namespace PathPlanner

structure Enumeration where
  paths : List (List EdgeIndex) := []
  exhaustive : Bool := false
  steps : Nat := 0
  stepLimited : Bool := false

structure EnumerationRun where
  scratch : SearchScratch
  out : Enumeration

namespace EnumerationRun

def charge (run : EnumerationRun) : EnumerationRun where
  scratch := { run.scratch with enumerationSteps := run.scratch.enumerationSteps + 1 }
  out := { run.out with steps := run.out.steps + 1 }

def exhaust (run : EnumerationRun) : EnumerationRun where
  scratch := { run.scratch with enumerationExhausted := true }
  out := { run.out with stepLimited := true }

def found (run : EnumerationRun) (path : List EdgeIndex) : EnumerationRun :=
  { run with out := { run.out with paths := run.out.paths ++ [path] } }

end EnumerationRun

-- One logical edge's enumeration: its endpoints, bindings and bounds.
structure EnumerationTask where
  source : NodeIndex
  target : NodeIndex
  sourceBinding : EndpointBinding
  targetBinding : EndpointBinding
  maxPaths : Nat
  maxSteps : Nat

namespace Enumerate

variable (state : PlannerState) (blocks : BlockSet) (task : EnumerationTask)

-- The filters between two hops: the node an edge leads to and the cost of getting there.
def extend (node : NodeIndex) (visited : List NodeIndex) (cost : Nat) (index : EdgeIndex) : Option (NodeIndex × Nat) :=
  match state.fabric.nodeIndex (state.edge index).target with
  | none => none
  | some next =>
      if next = node then none
      else if hopUsable state blocks task.sourceBinding task.targetBinding index next = false then none
      else if next ∈ visited then none
      else if saturatingAdd cost (state.edgeCost index) kCostCeiling > state.policy.maxPathCost then none
      else some (next, saturatingAdd cost (state.edgeCost index) kCostCeiling)

-- The loop over the outgoing edges; descend is the call one level deeper.
def enumerateEdges (descend : NodeIndex → List EdgeIndex → Nat → EnumerationRun → EnumerationRun) (last : Bool)
    (node : NodeIndex) (visited : List NodeIndex) (current : List EdgeIndex) (cost : Nat) :
    List EdgeIndex → EnumerationRun → EnumerationRun
  | [], run => run
  | index :: rest, run =>
      if run.out.steps ≥ task.maxSteps ∨ run.out.paths.length > task.maxPaths then run
      else if run.scratch.enumerationSteps ≥ state.enumerationBudget then run.exhaust
      else
        enumerateEdges descend last node visited current cost rest
          (match extend state blocks task node visited cost index with
          | none => run.charge
          | some (next, nextCost) =>
              -- A path never passes through its own destination.
              if next = task.target then if last then run.charge.found (current ++ [index]) else run.charge
              else if last then run.charge
              else descend next (current ++ [index]) nextCost run.charge)

def enumerateDepth : Nat → NodeIndex → List NodeIndex → List EdgeIndex → Nat → EnumerationRun → EnumerationRun
  | 0, _, _, _, _, run => run
  | remaining + 1, node, visited, current, cost, run =>
      enumerateEdges state blocks task
        (fun next deeper nextCost => enumerateDepth remaining next (next :: visited) deeper nextCost)
        (decide (remaining = 0)) node visited current cost (state.fabric.outEdges node) run

def stopped (run : EnumerationRun) : Prop :=
  run.out.steps ≥ task.maxSteps ∨ run.out.paths.length > task.maxPaths ∨
    run.scratch.enumerationSteps ≥ state.enumerationBudget

instance (run : EnumerationRun) : Decidable (stopped state task run) := by unfold stopped; infer_instance

-- The first number counts the sweeps left, the second is the depth of the next one.
def deepen : Nat → Nat → EnumerationRun → EnumerationRun
  | 0, _, run => { run with out := { run.out with exhaustive := true } }
  | left + 1, limit, run =>
      let swept := enumerateDepth state blocks task limit task.source [task.source] [] 0 run
      if stopped state task swept then
        let limited := decide (swept.out.steps ≥ task.maxSteps ∨
          swept.scratch.enumerationSteps ≥ state.enumerationBudget)
        { swept with out := { swept.out with stepLimited := swept.out.stepLimited || limited } }
      else deepen left (limit + 1) swept

end Enumerate

def enumeratePaths (state : PlannerState) (task : EnumerationTask) (run : EnumerationRun) : EnumerationRun :=
  Enumerate.deepen state run.scratch.blocks task (min state.hopLimit state.fabric.nodes.length) 1 run

end PathPlanner
