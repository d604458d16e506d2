import PathPlanner.Planner.EnumerateSound
import PathPlanner.Planner.Alternatives

set_option autoImplicit false

namespace PathPlanner

open Sequence Mapping Walk Budget

namespace Enumerate

section Listing

variable (state : PlannerState) (blocks : BlockSet) (task : EnumerationTask)

end Listing

variable {state : PlannerState} {task : EnumerationTask}

end Enumerate

end PathPlanner
