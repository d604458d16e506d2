import PathPlanner.Planner.Candidate
import PathPlanner.Lib.Ranked
import PathPlanner.Lib.Tally

set_option autoImplicit false

namespace PathPlanner

structure PathSet where
  paths : List Candidate := []
  totalCost : Nat := 0
  maxPathCost : Nat := 0
  headroom : Nat := kCostCeiling
  domainConflicts : Nat := 0
  usage : List (EdgeIndex × Nat) := []
  signature : List EdgeIndex := []
deriving DecidableEq, Repr

def pathSetLess (lhs rhs : PathSet) : Prop :=
  lhs.totalCost < rhs.totalCost ∨ (lhs.totalCost = rhs.totalCost ∧
    (lhs.domainConflicts < rhs.domainConflicts ∨ (lhs.domainConflicts = rhs.domainConflicts ∧
      (lhs.maxPathCost < rhs.maxPathCost ∨ (lhs.maxPathCost = rhs.maxPathCost ∧
        (lhs.headroom > rhs.headroom ∨ (lhs.headroom = rhs.headroom ∧ lhs.signature < rhs.signature)))))))

instance : DecidableRel pathSetLess := fun lhs rhs => by unfold pathSetLess; infer_instance

def usageNotAfter (lhs rhs : EdgeIndex × Nat) : Prop := lhs.1 < rhs.1 ∨ (lhs.1 = rhs.1 ∧ lhs.2 ≤ rhs.2)

instance : DecidableRel usageNotAfter := fun lhs rhs => by unfold usageNotAfter; infer_instance

namespace BuildPathSet

variable (state : PlannerState)

-- Entries are merged by edge; the first share of an edge is stored as it is.
def mergeUsage (demand : Nat) (hops : List EdgeIndex) : List (EdgeIndex × Nat) :=
  Tally.noteAll demand (fun old => saturatingAdd old demand kCostCeiling) hops

-- An edge without verified capacity has no footprint.
def verifiedHops (paths : List Candidate) : List EdgeIndex :=
  (paths.flatMap Candidate.edges).filter fun index => (state.edge index).capacityMbps ≠ 0

def usageOf (demand : Nat) (paths : List Candidate) : List (EdgeIndex × Nat) :=
  (mergeUsage demand (verifiedHops state paths)).insertionSort usageNotAfter

def entryHeadroom (entry : EdgeIndex × Nat) : Nat :=
  if entry.2 ≥ state.spare entry.1 then 0 else state.spare entry.1 - entry.2

def headroomOf (usage : List (EdgeIndex × Nat)) : Nat := (usage.map (entryHeadroom state)).foldl min kCostCeiling

def conflictsOf : List Candidate → Nat
  | [] => 0
  | path :: rest => (rest.filter fun other => !domainsIndependent path other).length + conflictsOf rest

end BuildPathSet

open BuildPathSet in
def buildPathSet (state : PlannerState) (chosen : List Candidate) (perPathDemand : Nat) : PathSet :=
  let paths := sortCandidates chosen
  let usage := usageOf state perPathDemand paths
  { paths
    totalCost := saturatingSum (paths.map Candidate.cost)
    maxPathCost := (paths.map Candidate.cost).foldl max 0
    headroom := headroomOf state usage
    domainConflicts := if state.policy.domainDiversity = .none then 0 else conflictsOf paths
    usage
    signature := paths.flatMap Candidate.edges }

inductive SetReject where
  | none | disjointness | domainDiversity | capacity
deriving DecidableEq, Repr

structure SetEnumeration where
  best : List PathSet := []
  accepted : Nat := 0
  considered : Nat := 0
  exhaustive : Bool := false
  stepLimited : Bool := false
  rejectedDisjointness : Nat := 0
  rejectedDomain : Nat := 0
  rejectedCapacity : Nat := 0

def offerSet (out : SetEnumeration) (set : PathSet) (cap : Nat) : SetEnumeration :=
  { out with accepted := out.accepted + 1, best := Ranked.insert pathSetLess cap out.best set }

namespace EnumerateSets

variable (state : PlannerState) (wanted cap budget : Nat)

def rejectPair (chosenCount : Nat) (existing candidate : Candidate) : SetReject :=
  if state.policy.disjointness ≠ .none ∧ pathsEdgeDisjoint existing candidate = false then .disjointness
  else if state.policy.disjointness = .node ∧ pathsNodeDisjoint state.fabric existing candidate = false then
    .disjointness
  else if state.policy.domainDiversity = .required ∧ domainsIndependent existing candidate = false then
    .domainDiversity
  else if state.policy.domainDiversity = .required ∧ chosenCount > 1 ∧ candidate.domainKnown = false then
    .domainDiversity
  else .none

-- The first chosen path the candidate cannot stand beside gives the reason.
def firstReject (chosenCount : Nat) (candidate : Candidate) : List Candidate → SetReject
  | [] => .none
  | existing :: rest =>
      if rejectPair state chosenCount existing candidate = .none then firstReject chosenCount candidate rest
      else rejectPair state chosenCount existing candidate

def reject (out : SetEnumeration) : SetReject → SetEnumeration
  | .disjointness =>
      { out with considered := out.considered + 1, rejectedDisjointness := out.rejectedDisjointness + 1 }
  | .domainDiversity => { out with considered := out.considered + 1, rejectedDomain := out.rejectedDomain + 1 }
  | _ => { out with considered := out.considered + 1 }

def fitsSpare (set : PathSet) : Bool := set.usage.all fun entry => decide (entry.2 ≤ state.spare entry.1)

def consider (chosen : List Candidate) (out : SetEnumeration) : SetEnumeration :=
  let out := { out with considered := out.considered + 1 }
  let set := buildPathSet state chosen state.perPathDemand
  if fitsSpare state set then offerSet out set cap
  else { out with rejectedCapacity := out.rejectedCapacity + 1 }

-- What a call does before its loop; left counts the pool from the call's index on.
def enterSets (loop : SetEnumeration → SetEnumeration) (left : Nat) (chosen : List Candidate) (out : SetEnumeration) :
    SetEnumeration :=
  if out.considered ≥ budget then { out with stepLimited := true }
  else if chosen.length = wanted then consider state cap chosen out
  else if left = 0 ∨ left < wanted - chosen.length then out
  else loop out

def setsLoop : List Candidate → List Candidate → SetEnumeration → SetEnumeration
  | [], _, out => out
  | candidate :: rest, chosen, out =>
      if out.considered ≥ budget then { out with stepLimited := true }
      else
        match firstReject state chosen.length candidate chosen with
        | .none =>
            setsLoop rest chosen (enterSets state wanted cap budget
              (fun deeper => setsLoop rest (chosen ++ [candidate]) deeper) rest.length (chosen ++ [candidate]) out)
        | reason => setsLoop rest chosen (reject out reason)

end EnumerateSets

open EnumerateSets in
def enumerateSets (state : PlannerState) (pool : List Candidate) (wanted cap budget : Nat) : SetEnumeration :=
  enterSets state wanted cap budget (setsLoop state wanted cap budget pool []) pool.length [] {}

end PathPlanner
