import PathPlanner.Planner.Enumerate

set_option autoImplicit false

namespace PathPlanner

structure PlannerLimits where
  maxCandidatePaths : Nat := 8
  maxExhaustivePaths : Nat := 64
  maxEnumerationSteps : Nat := 512
  maxTotalEnumerationSteps : Nat := 2 ^ 21
  maxCombinationSteps : Nat := 200000
  maxSetAlternatives : Nat := 8
  maxGlobalNodes : Nat := 200000
  maxSearchExpansions : Nat := 2 ^ 18
  collectAllDenials : Bool := true
deriving Repr

namespace BuildPool

-- Neighbouring candidates with the same edges keep the first.
def uniqueCandidates (candidates : List Candidate) : List Candidate := Sequence.uniqueBy Candidate.edges candidates

def enumeratedCandidates (state : PlannerState) (source : NodeIndex) (paths : List (List EdgeIndex)) : List Candidate :=
  uniqueCandidates (sortCandidates (paths.filterMap fun path => state.makeCandidate path source))

def alreadyPresent (pool : List Candidate) (candidate : Candidate) : Bool := pool.any fun entry => samePath entry candidate

variable (state : PlannerState) (task : EnumerationTask) (cap : Nat)

def consider (pool : List Candidate) (outcome : SearchOutcome) : List Candidate :=
  if outcome.found = false ∨ pool.length ≥ cap then pool
  else
    match state.makeCandidate outcome.edges task.source with
    | none => pool
    | some candidate => if alreadyPresent pool candidate then pool else pool ++ [candidate]

def interiorPositions (edges : List EdgeIndex) : List NodeIndex :=
  edges.dropLast.filterMap fun index => state.fabric.nodeIndex (state.edge index).target

def searchBlocked (scratch : SearchScratch) (edges : List EdgeIndex) (nodes : List NodeIndex) :
    SearchOutcome × SearchScratch :=
  let blocks := nodes.foldl BlockSet.blockNode (edges.foldl BlockSet.blockEdge scratch.blocks.reset)
  shortestPath state { scratch with blocks } task.source task.target task.sourceBinding task.targetBinding

def cheapestFirst (candidates : List Candidate) (scratch : SearchScratch) : List Candidate × SearchScratch :=
  let (best, scratch) := searchBlocked state task scratch [] []
  match best.found, state.makeCandidate best.edges task.source with
  | true, some cheapest => ([cheapest], scratch)
  | _, _ => (candidates.take 1, scratch)

structure Chain where
  blockedEdges : List EdgeIndex
  blockedNodes : List NodeIndex
  pool : List Candidate
  scratch : SearchScratch

def nodeDisjoint : Bool := decide (state.policy.disjointness = .node)

-- The greedy chain of routes that avoid every route before them.
def diversify : Nat → Chain → Chain
  | 0, chain => chain
  | steps + 1, chain =>
      if chain.pool.length ≥ cap then chain
      else
        let (next, scratch) := searchBlocked state task chain.scratch chain.blockedEdges chain.blockedNodes
        if next.found = false then { chain with scratch }
        else diversify steps {
          blockedEdges := chain.blockedEdges ++ next.edges
          blockedNodes := chain.blockedNodes ++ if nodeDisjoint state then interiorPositions state next.edges else []
          pool := consider state task cap chain.pool next
          scratch }

-- One alternative for every single edge or node taken away in turn.
def alternatives (pool : List Candidate) :
    List (List EdgeIndex × List NodeIndex) → List Candidate → SearchScratch → List Candidate × SearchScratch
  | [], extra, scratch => (extra, scratch)
  | (edges, nodes) :: rest, extra, scratch =>
      let (found, scratch) := searchBlocked state task scratch edges nodes
      if found.found = false then alternatives pool rest extra scratch
      else
        match state.makeCandidate found.edges task.source with
        | none => alternatives pool rest extra scratch
        | some candidate =>
            if alreadyPresent pool candidate || alreadyPresent extra candidate then
              alternatives pool rest extra scratch
            else alternatives pool rest (extra ++ [candidate]) scratch

def diversePool (first : Candidate) (pool : List Candidate) (scratch : SearchScratch) :
    List Candidate × SearchScratch :=
  let blockedNodes := if nodeDisjoint state then interiorPositions state first.edges else []
  let chain := diversify state task cap (state.policy.pathsPerLogicalEdge - 1)
    ⟨first.edges, blockedNodes, pool, scratch⟩
  let takenAway := first.edges.map (fun index => ([index], [])) ++
    if nodeDisjoint state then chain.blockedNodes.map (fun node => ([], [node])) else []
  let (extra, scratch) := alternatives state task chain.pool takenAway [] chain.scratch
  (chain.pool ++ (sortCandidates extra).take (cap - chain.pool.length), scratch)

def fillPool (candidates : List Candidate) (pool : List Candidate) : List Candidate :=
  match candidates with
  | [] => pool
  | candidate :: rest =>
      if pool.length ≥ cap then pool
      else fillPool rest (if alreadyPresent pool candidate then pool else pool ++ [candidate])

end BuildPool

open BuildPool in
def buildPool (state : PlannerState) (task : EnumerationTask) (enumeration : Enumeration) (limits : PlannerLimits)
    (scratch : SearchScratch) : List Candidate × SearchScratch :=
  let candidates := enumeratedCandidates state task.source enumeration.paths
  if enumeration.exhaustive then (candidates, scratch)
  else
    let cap := limits.maxCandidatePaths
    let (pool, scratch) := cheapestFirst state task candidates scratch
    let (pool, scratch) := match pool with
      | [] => ([], scratch)
      | first :: _ => diversePool state task cap first pool scratch
    (sortCandidates (fillPool cap candidates pool), { scratch with blocks := scratch.blocks.reset })

end PathPlanner
