import PathPlanner.Planner.Analyse

set_option autoImplicit false

namespace PathPlanner

structure GlobalCandidate where
  choice : List Nat := []
  totalCost : Nat := 0
  conflicts : Nat := 0
  maxPathCost : Nat := 0
  minHeadroom : Nat := kCostCeiling
deriving DecidableEq, Repr

-- A tie keeps the candidate explored first.
def globalBetter (lhs rhs : GlobalCandidate) : Prop :=
  lhs.totalCost < rhs.totalCost ∨ (lhs.totalCost = rhs.totalCost ∧
    (lhs.conflicts < rhs.conflicts ∨ (lhs.conflicts = rhs.conflicts ∧
      (lhs.maxPathCost < rhs.maxPathCost ∨ (lhs.maxPathCost = rhs.maxPathCost ∧
        lhs.minHeadroom > rhs.minHeadroom)))))

instance : DecidableRel globalBetter := fun lhs rhs => by unfold globalBetter; infer_instance

structure GlobalResult where
  best : Option GlobalCandidate := none
  exhaustive : Bool := false
  nodes : Nat := 0

abbrev Remaining := EdgeIndex → Nat

namespace SolveGlobal

def fits (remaining : Remaining) (set : PathSet) : Bool :=
  set.usage.all fun entry => decide (entry.2 ≤ remaining entry.1)

def apply (remaining : Remaining) (set : PathSet) : Remaining :=
  set.usage.foldl (fun left entry => Function.update left entry.1 (left entry.1 - entry.2)) remaining

def unapply (remaining : Remaining) (set : PathSet) : Remaining :=
  set.usage.foldl (fun left entry => Function.update left entry.1 (left entry.1 + entry.2)) remaining

def summarise (choice : List Nat) (sets : List PathSet) (remaining : Remaining) : GlobalCandidate where
  choice
  totalCost := saturatingSum (sets.map PathSet.totalCost)
  conflicts := (sets.map PathSet.domainConflicts).sum
  maxPathCost := (sets.map PathSet.maxPathCost).foldl max 0
  minHeadroom := (sets.flatMap fun set => set.usage.map fun entry => remaining entry.1).foldl min kCostCeiling

-- Every entry is tested against what the entries before it have left.
def takeUsage (trial : Remaining) : List (EdgeIndex × Nat) → Option Remaining
  | [] => some trial
  | entry :: rest =>
      if entry.2 > trial entry.1 then none
      else takeUsage (Function.update trial entry.1 (trial entry.1 - entry.2)) rest

def takeFronts (trial : Remaining) : List EdgePlan → Option Remaining
  | [] => some trial
  | plan :: rest =>
      match plan.alternatives with
      | [] => none
      | front :: _ => (takeUsage trial front.usage).bind fun left => takeFronts left rest

def setAt (plans : List EdgePlan) (level index : Nat) : PathSet :=
  (plans.getD level {}).alternatives.getD index {}

def chosenSets (plans : List EdgePlan) (choice : List Nat) : List PathSet :=
  choice.mapIdx fun level index => setAt plans level index

-- The vectors choice and started are a stack: chosen holds the choices of the levels below the
-- current one, and cursor is the next alternative of the current level. none is level minus one.
structure Explorer where
  chosen : List Nat
  cursor : Nat
  remaining : Remaining
  best : Option GlobalCandidate
  nodes : Nat

inductive Step where
  | running (explorer : Explorer)
  | finished (explorer : Explorer)
  | limited (explorer : Explorer)

def offer (best : Option GlobalCandidate) (candidate : GlobalCandidate) : Option GlobalCandidate :=
  match best with
  | none => some candidate
  | some kept => if globalBetter candidate kept then some candidate else some kept

-- Leaves the current level for the one below, whose alternative is taken back.
def retreat (plans : List EdgePlan) (explorer : Explorer) : Step :=
  match explorer.chosen.getLast? with
  | none => .finished explorer
  | some last =>
      let below := explorer.chosen.dropLast
      .running { explorer with
        chosen := below
        cursor := last + 1
        remaining := unapply explorer.remaining (setAt plans below.length last) }

-- The scan for the next alternative that fits, and what it leads to.
def advance (plans : List EdgePlan) (budget : Nat) : List PathSet → Explorer → Step
  | [], explorer => retreat plans explorer
  | set :: rest, explorer =>
      if explorer.nodes ≥ budget then .limited explorer
      else if fits explorer.remaining set = false then
        advance plans budget rest { explorer with cursor := explorer.cursor + 1, nodes := explorer.nodes + 1 }
      else .running { explorer with
        chosen := explorer.chosen ++ [explorer.cursor]
        cursor := 0
        remaining := apply explorer.remaining set
        nodes := explorer.nodes + 1 }

def step (plans : List EdgePlan) (budget : Nat) (explorer : Explorer) : Step :=
  if explorer.chosen.length = plans.length then
    let candidate := summarise explorer.chosen (chosenSets plans explorer.chosen) explorer.remaining
    retreat plans { explorer with best := offer explorer.best candidate }
  else
    advance plans budget ((plans.getD explorer.chosen.length {}).alternatives.drop explorer.cursor) explorer

-- Every turn that does not retreat visits a node, so twice the budget bounds the turns.
def explore (plans : List EdgePlan) (budget : Nat) : Nat → Explorer → Step
  | 0, explorer => .running explorer
  | turns + 1, explorer =>
      match step plans budget explorer with
      | .running next => explore plans budget turns next
      | outcome => outcome

def fastPath (plans : List EdgePlan) (remaining : Remaining) : Option GlobalCandidate :=
  (takeFronts remaining plans).map fun trial =>
    summarise (List.replicate plans.length 0) (chosenSets plans (List.replicate plans.length 0)) trial

end SolveGlobal

open SolveGlobal in
def solveGlobal (plans : List EdgePlan) (remaining : Remaining) (budget : Nat) : GlobalResult :=
  if plans = [] then { best := some {}, exhaustive := true }
  else
    match fastPath plans remaining with
    | some candidate => { best := some candidate, exhaustive := plans.all EdgePlan.setsExhaustive }
    | none =>
        match explore plans budget (2 * budget + 1) ⟨[], 0, remaining, none, 0⟩ with
        | .running explorer | .limited explorer =>
            { best := explorer.best, exhaustive := false, nodes := explorer.nodes }
        | .finished explorer =>
            { best := explorer.best
              exhaustive := explorer.best.isNone || plans.all EdgePlan.setsExhaustive
              nodes := explorer.nodes }

end PathPlanner
