import PathPlanner.Planner.AnalyseSound
import PathPlanner.Planner.GlobalSound

set_option autoImplicit false

namespace PathPlanner

open Mapping EnumerateSets BuildPool

namespace Enumerate

variable {state : PlannerState} {task : EnumerationTask}

variable (blocks : BlockSet)

end Enumerate

namespace EnumerateSets

variable {state : PlannerState} (wanted cap budget : Nat)

end EnumerateSets

namespace SolveGlobal

end SolveGlobal

end PathPlanner
