import PathPlanner.Planner.Candidate

set_option autoImplicit false

namespace PathPlanner

-- Stamps are 32-bit: when the generation wraps to zero every stamp is cleared.
structure BlockSet where
  nodeStamp : NodeIndex → Nat := fun _ => 0
  edgeStamp : EdgeIndex → Nat := fun _ => 0
  generation : Nat := 1

namespace BlockSet

def reset (blocks : BlockSet) : BlockSet :=
  if (blocks.generation + 1) % 2 ^ 32 = 0 then {}
  else { blocks with generation := (blocks.generation + 1) % 2 ^ 32 }

def blockNode (blocks : BlockSet) (node : NodeIndex) : BlockSet :=
  { blocks with nodeStamp := Function.update blocks.nodeStamp node blocks.generation }

def blockEdge (blocks : BlockSet) (edge : EdgeIndex) : BlockSet :=
  { blocks with edgeStamp := Function.update blocks.edgeStamp edge blocks.generation }

def nodeBlocked (blocks : BlockSet) (node : NodeIndex) : Bool := blocks.nodeStamp node == blocks.generation

def edgeBlocked (blocks : BlockSet) (edge : EdgeIndex) : Bool := blocks.edgeStamp edge == blocks.generation

end BlockSet

structure Label where
  cost : Nat
  hops : Nat
  node : NodeIndex
deriving DecidableEq, Repr

def Label.notAfter (lhs rhs : Label) : Prop :=
  lhs.cost < rhs.cost ∨ (lhs.cost = rhs.cost ∧
    (lhs.hops < rhs.hops ∨ (lhs.hops = rhs.hops ∧ lhs.node ≤ rhs.node)))

instance : DecidableRel Label.notAfter := fun lhs rhs => by unfold Label.notAfter; infer_instance

-- A key packs a node and a hop count; both stay below 2^32, so the pair is the key.
abbrev StateKey := NodeIndex × Nat

-- What a search leaves in the planner state beside its outcome.
structure SearchTables where
  dist : StateKey → Option Nat := fun _ => none
  prev : StateKey → Option (StateKey × EdgeIndex) := fun _ => none
  frontier : List Label := []

-- The part of the planner state that the analyses of all logical edges share.
structure SearchScratch where
  expansions : Nat := 0
  enumerationSteps : Nat := 0
  budgetExceeded : Bool := false
  enumerationExhausted : Bool := false
  blocks : BlockSet := {}
  tables : SearchTables := {}

def hopUsable (state : PlannerState) (blocks : BlockSet) (sourceBinding targetBinding : EndpointBinding)
    (index : EdgeIndex) (next : NodeIndex) : Bool :=
  !blocks.edgeBlocked index && (state.nodeAllowed next && !blocks.nodeBlocked next) &&
    (state.edgeStaticallyUsable index && state.edgeCarriesDemand index) &&
    (bindingAllowsEdge state.fabric sourceBinding (state.edge index) &&
      bindingAllowsEdge state.fabric targetBinding (state.edge index))

structure SearchOutcome where
  found : Bool := false
  budgetExceeded : Bool := false
  cost : Nat := 0
  edges : List EdgeIndex := []
deriving Repr

namespace ShortestPath

variable (state : PlannerState) (blocks : BlockSet) (sourceBinding targetBinding : EndpointBinding)

def popAll : List Label → List Label
  | [] => []
  | _ :: rest => popAll rest

def clearTables (tables : SearchTables) : SearchTables where
  dist := fun _ => none
  prev := fun _ => none
  frontier := popAll tables.frontier

def startTables (tables : SearchTables) (source : NodeIndex) : SearchTables :=
  let cleared := clearTables tables
  { cleared with
    dist := Function.update cleared.dist (source, 0) (some 0)
    frontier := cleared.frontier.orderedInsert Label.notAfter ⟨0, 0, source⟩ }

-- Pops the labels that a cheaper one has overtaken.
def settle (dist : StateKey → Option Nat) : List Label → List Label
  | [] => []
  | label :: rest =>
      if (dist (label.node, label.hops)).all (· < label.cost) then settle dist rest else label :: rest

def record (label : Label) (tables : SearchTables) (index : EdgeIndex) (next : NodeIndex) (nextCost : Nat) :
    SearchTables where
  dist := Function.update tables.dist (next, label.hops + 1) (some nextCost)
  prev := Function.update tables.prev (next, label.hops + 1) (some ((label.node, label.hops), index))
  frontier := tables.frontier.orderedInsert Label.notAfter ⟨nextCost, label.hops + 1, next⟩

def relaxEdge (label : Label) (tables : SearchTables) (index : EdgeIndex) : SearchTables :=
  match state.fabric.nodeIndex (state.edge index).target with
  | none => tables
  | some next =>
      if hopUsable state blocks sourceBinding targetBinding index next = false then tables
      else
        let nextCost := saturatingAdd label.cost (state.edgeCost index) kCostCeiling
        if nextCost > state.policy.maxPathCost then tables
        else if (tables.dist (next, label.hops + 1)).all (nextCost < ·) then
          record label tables index next nextCost
        else tables

def relaxEdges (label : Label) (tables : SearchTables) (outgoing : List EdgeIndex) : SearchTables :=
  outgoing.foldl (relaxEdge state blocks sourceBinding targetBinding label) tables

-- Each step back lowers the hop count, so the hop count of the label bounds the walk.
def tracePath (prev : StateKey → Option (StateKey × EdgeIndex)) (start : StateKey) :
    Nat → StateKey → Option (List EdgeIndex)
  | steps, cursor =>
      if cursor = start then some []
      else
        match steps with
        | 0 => none
        | steps + 1 =>
            match prev cursor with
            | none => none
            | some (before, index) => (tracePath prev start steps before).map (· ++ [index])

def arrive (source : NodeIndex) (tables : SearchTables) (label : Label) : SearchOutcome :=
  match tracePath tables.prev (source, 0) label.hops (label.node, label.hops) with
  | none => { cost := label.cost }
  | some edges => { found := true, cost := label.cost, edges }

-- The number is the expansions left in the budget; the result also carries the tables and what remains of it.
def searchLoop (source target : NodeIndex) : Nat → SearchTables → SearchOutcome × SearchTables × Nat
  | left, tables =>
      match settle tables.dist tables.frontier with
      | [] => ({}, { tables with frontier := [] }, left)
      | label :: rest =>
          if label.node = target then (arrive source tables label, { tables with frontier := rest }, left)
          else
            match left with
            | 0 => ({ budgetExceeded := true }, { frontier := rest }, 0)
            | left + 1 =>
                if label.hops ≥ state.hopLimit then searchLoop source target left { tables with frontier := rest }
                else searchLoop source target left (relaxEdges state blocks sourceBinding targetBinding label
                  { tables with frontier := rest } (state.fabric.outEdges label.node))

end ShortestPath

open ShortestPath in
def shortestPath (state : PlannerState) (scratch : SearchScratch) (source target : NodeIndex)
    (sourceBinding targetBinding : EndpointBinding) : SearchOutcome × SearchScratch :=
  if source = target then ({ found := true }, scratch)
  else if state.nodeAllowed source = false ∨ state.nodeAllowed target = false then ({}, scratch)
  else
    let left := state.maxExpansions - scratch.expansions
    let (outcome, tables, unused) := searchLoop state scratch.blocks sourceBinding targetBinding source target left
      (startTables scratch.tables source)
    (outcome, { scratch with
      expansions := scratch.expansions + (left - unused)
      budgetExceeded := scratch.budgetExceeded || outcome.budgetExceeded
      tables })

end PathPlanner
