import PathPlanner.Planner.CoLocation

set_option autoImplicit false

namespace PathPlanner

open TwoRuns

namespace Enumerate

variable (state : PlannerState) (blocks : BlockSet) (task : EnumerationTask)

variable {state}

end Enumerate

namespace ShortestPath

end ShortestPath

namespace Enumerate

variable (state : PlannerState) (budget : Nat)

end Enumerate

-- What a run is asked of its counters: the expansions and the flag of an exceeded budget at its end, and in every state.
structure Counters where
  within : Nat → Bool → Prop
  keeps : Nat → Nat → Bool → Prop

-- Equal states whose counters keep a condition.
def Counters.view (counters : Counters) : View SearchScratch where
  within scratch := counters.within scratch.expansions scratch.budgetExceeded
  abreast left right := left = right ∧ right.blocks.Bounded ∧
    counters.keeps right.expansions right.enumerationSteps right.budgetExceeded

namespace Analyse

variable (state : PlannerState) (limits : PlannerLimits) (task : EnumerationTask)

end Analyse

namespace SolveGlobal

def Step.Within (budget : Nat) : Step → Prop
  | .running explorer | .finished explorer | .limited explorer => explorer.nodes ≤ budget

end SolveGlobal

namespace PlanCollective

variable {request : PlanningRequest} {limits : PlannerLimits}

def spent (request : PlanningRequest) (limits : PlannerLimits) : SearchScratch :=
  (analyseAll (initialState request limits) limits request.collective.logicalEdges.length 0 {}).2

end PlanCollective

end PathPlanner
