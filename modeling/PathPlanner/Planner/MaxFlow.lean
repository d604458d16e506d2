import PathPlanner.Planner.Search
import PathPlanner.Lib.Breadth

set_option autoImplicit false

namespace PathPlanner

structure Arc where
  target : Nat
  capacity : Nat
  reverse : Nat
deriving DecidableEq, Repr

abbrev FlowGraph := List (List Arc)

namespace MaxFlow

def arcs (graph : FlowGraph) (node : Nat) : List Arc := graph.getD node []

def addArc (graph : FlowGraph) (tail head capacity : Nat) : FlowGraph :=
  let forward := graph.modify tail (· ++ [⟨head, capacity, (arcs graph head).length⟩])
  forward.modify head (· ++ [⟨tail, 0, (arcs forward tail).length - 1⟩])

def residual (graph : FlowGraph) (node : Nat) : List Nat :=
  ((arcs graph node).filter fun arc => arc.capacity > 0).map Arc.target

-- none is the unreachable level.
def levels (graph : FlowGraph) (source : Nat) : Nat → Option Nat :=
  match Breadth.search (residual graph) (fun _ => false) graph.length source with
  | .error _ => fun _ => none
  | .ok sweep => sweep.distance

structure Flow where
  graph : FlowGraph
  cursor : Nat → Nat

def advance (flow : Flow) (node : Nat) : Flow :=
  { flow with cursor := Function.update flow.cursor node (flow.cursor node + 1) }

def push (flow : Flow) (node position : Nat) (arc : Arc) (pushed : Nat) : Flow :=
  let lowered := flow.graph.modify node fun list =>
    list.modify position fun arc => { arc with capacity := arc.capacity - pushed }
  let raised := lowered.modify arc.target fun list =>
    list.modify arc.reverse fun arc => { arc with capacity := arc.capacity + pushed }
  { flow with graph := raised }

-- The loop over the arcs a node's cursor has not passed; descend is the call one level deeper.
def scan (level : Nat → Option Nat) (descend : Nat → Nat → Flow → Nat × Flow) (node limit : Nat) :
    Nat → Flow → Nat × Flow
  | 0, flow => (0, flow)
  | left + 1, flow =>
      match (arcs flow.graph node)[flow.cursor node]? with
      | none => (0, flow)
      | some arc =>
          if arc.capacity = 0 ∨ level arc.target ≠ (level node).map (· + 1) then
            scan level descend node limit left (advance flow node)
          else
            let (pushed, deeper) := descend arc.target (min limit arc.capacity) flow
            if pushed > 0 then (pushed, push deeper node (deeper.cursor node) arc pushed)
            else scan level descend node limit left (advance deeper node)

-- Levels rise by one along the recursion and stay below the node count, which bounds its depth.
def augment (level : Nat → Option Nat) (sink : Nat) : Nat → Nat → Nat → Flow → Nat × Flow
  | depth, node, limit, flow =>
      if node = sink then (limit, flow)
      else
        match depth with
        | 0 => (0, flow)
        | depth + 1 =>
            scan level (augment level sink depth) node limit
              ((arcs flow.graph node).length - flow.cursor node) flow

-- Each round but the last adds to the flow, so the missing flow bounds the rounds.
def augmentAll (level : Nat → Option Nat) (source sink limit : Nat) : Nat → Nat → Flow → Nat × Flow
  | 0, total, flow => (total, flow)
  | rounds + 1, total, flow =>
      if total ≥ limit then (total, flow)
      else
        let (pushed, flow) := augment level sink flow.graph.length source (limit - total) flow
        if pushed = 0 then (total, flow) else augmentAll level source sink limit rounds (total + pushed) flow

def phases (source sink limit : Nat) : Nat → Nat → FlowGraph → Nat × FlowGraph
  | 0, total, graph => (total, graph)
  | rounds + 1, total, graph =>
      if total ≥ limit then (total, graph)
      else
        let level := levels graph source
        match level sink with
        | none => (total, graph)
        | some _ =>
            let (total, flow) := augmentAll level source sink limit (limit - total) total ⟨graph, fun _ => 0⟩
            phases source sink limit rounds total flow.graph

def run (graph : FlowGraph) (source sink limit : Nat) : Nat := (phases source sink limit limit 0 graph).1

end MaxFlow

namespace MaxDisjointPaths

variable (state : PlannerState) (source target : NodeIndex) (nodeDisjoint : Bool)
  (sourceBinding targetBinding : EndpointBinding) (limit : Nat)

def tailOf (node : NodeIndex) : Nat := if nodeDisjoint then 2 * node + 1 else node

def headOf (node : NodeIndex) : Nat := if nodeDisjoint then 2 * node else node

def addNode (graph : FlowGraph) (node : NodeIndex) : FlowGraph :=
  if state.nodeAllowed node = false then graph
  else MaxFlow.addArc graph (2 * node) (2 * node + 1) (if node = source ∨ node = target then limit else 1)

def addEdge (graph : FlowGraph) (index : EdgeIndex) : FlowGraph :=
  if state.edgeStaticallyUsable index = false ∨ state.edgeCarriesDemand index = false then graph
  else if bindingAllowsEdge state.fabric sourceBinding (state.edge index) = false ∨
      bindingAllowsEdge state.fabric targetBinding (state.edge index) = false then graph
  else
    match state.fabric.nodeIndex (state.edge index).source, state.fabric.nodeIndex (state.edge index).target with
    | some tail, some head =>
        if state.nodeAllowed tail = false ∨ state.nodeAllowed head = false then graph
        else MaxFlow.addArc graph (tailOf nodeDisjoint tail) (headOf nodeDisjoint head) 1
    | _, _ => graph

def flowGraph : FlowGraph :=
  let empty : FlowGraph := List.replicate (state.fabric.nodes.length * if nodeDisjoint then 2 else 1) []
  let split := if nodeDisjoint then
    (List.range state.fabric.nodes.length).foldl (addNode state source target limit) empty else empty
  (List.range state.fabric.edges.length).foldl
    (addEdge state nodeDisjoint sourceBinding targetBinding) split

end MaxDisjointPaths

open MaxDisjointPaths in
def maxDisjointPaths (state : PlannerState) (source target : NodeIndex) (nodeDisjoint : Bool)
    (sourceBinding targetBinding : EndpointBinding) (limit : Nat) : Nat :=
  MaxFlow.run (flowGraph state source target nodeDisjoint sourceBinding targetBinding limit)
    (tailOf nodeDisjoint source) (headOf nodeDisjoint target) limit

end PathPlanner
