import PathPlanner.Mapping

set_option autoImplicit false

namespace PathPlanner

open Walk

namespace Mapping

variable (request : PlanningRequest)

-- The documented objective, in the terms of the request alone.
instance decidableDeclared (route : Route) : Decidable (DomainsDeclared request route) :=
  inferInstanceAs (Decidable (∀ index ∈ route, (request.fabric.edge index).failureDomain.valid = true))

instance decidableIndependent (lhs rhs : Route) : Decidable (Independent request lhs rhs) :=
  decidable_of_iff (DomainsDeclared request lhs ∧ DomainsDeclared request rhs ∧
      ∀ domain ∈ routeSignature request lhs, domain ∉ routeSignature request rhs)
    ⟨fun facts => ⟨facts.1, facts.2.1, facts.2.2⟩, fun facts => ⟨facts.left, facts.right, facts.disjoint⟩⟩

def totalCost (assignment : Assignment) : Nat := (assignment.flatten.map (routeCost request)).sum

def conflictsOf : List Route → Nat
  | [] => 0
  | route :: rest => rest.countP (fun other => decide (¬ Independent request route other)) + conflictsOf rest

def siblingConflicts (assignment : Assignment) : Nat :=
  if request.policy.domainDiversity = .none then 0 else (assignment.map (conflictsOf request)).sum

def largestCost (assignment : Assignment) : Nat := (assignment.flatten.map (routeCost request)).foldl max 0

def Touched (assignment : Assignment) (index : EdgeIndex) : Prop :=
  (request.fabric.edge index).capacityMbps ≠ 0 ∧ index ∈ assignment.flatten.flatten

instance (assignment : Assignment) (index : EdgeIndex) : Decidable (Touched request assignment index) := by
  unfold Touched
  infer_instance

def headroom (assignment : Assignment) : Nat :=
  (((List.range request.fabric.edges.length).filter fun index => decide (Touched request assignment index)).map fun index =>
    (request.fabric.edge index).capacityMbps - (request.fabric.edge index).reservedMbps -
      load request assignment.flatten index).foldl min kCostCeiling

abbrev RouteKey := Nat ×ₗ Nat ×ₗ List EdgeIndex

def routeKey (route : Route) : RouteKey := toLex (routeCost request route, toLex (route.length, route))

-- Siblings are listed by cost, then by length, then by their edges.
def canonicalOrder (routes : List Route) : List Route :=
  routes.insertionSort fun lhs rhs => routeKey request lhs ≤ routeKey request rhs

def encoding (assignment : Assignment) : List EdgeIndex :=
  assignment.flatMap fun routes => (canonicalOrder request routes).flatten

abbrev ObjectiveKey := Nat ×ₗ Nat ×ₗ Nat ×ₗ Natᵒᵈ ×ₗ List EdgeIndex

def objective (assignment : Assignment) : ObjectiveKey :=
  toLex (totalCost request assignment, toLex (siblingConflicts request assignment, toLex (largestCost request assignment,
    toLex (OrderDual.toDual (headroom request assignment), encoding request assignment))))

def Optimal (assignment : Assignment) : Prop :=
  FittingAssignment request assignment ∧
    ∀ other, FittingAssignment request other → objective request assignment ≤ objective request other

-- Reordering siblings changes nothing.
section Reordered

theorem route_key_injective (lhs rhs : Route) (same : routeKey request lhs = routeKey request rhs) : lhs = rhs := by
  have pair := congrArg (fun key : RouteKey => (ofLex (ofLex key).2).2) same
  exact pair

theorem canonical_order_perm (routes : List Route) : (canonicalOrder request routes).Perm routes :=
  List.perm_insertionSort _ routes

theorem canonical_order_sorted (routes : List Route) :
    (canonicalOrder request routes).Pairwise fun lhs rhs => routeKey request lhs ≤ routeKey request rhs := by
  have total : Std.Total (fun lhs rhs : Route => routeKey request lhs ≤ routeKey request rhs) := ⟨fun lhs rhs => le_total _ _⟩
  have trans : IsTrans Route (fun lhs rhs => routeKey request lhs ≤ routeKey request rhs) := ⟨fun _ _ _ => le_trans⟩
  exact List.pairwise_insertionSort _ routes

theorem canonical_order_congr (lhs rhs : List Route) (perm : lhs.Perm rhs) :
    canonicalOrder request lhs = canonicalOrder request rhs := by
  have same := ((canonical_order_perm request lhs).trans perm).trans (canonical_order_perm request rhs).symm
  refine same.eq_of_pairwise (fun a b _ _ left right => ?_) (canonical_order_sorted request lhs) (canonical_order_sorted request rhs)
  exact route_key_injective request a b (le_antisymm left right)

theorem independent_comm (lhs rhs : Route) : Independent request lhs rhs ↔ Independent request rhs lhs :=
  ⟨fun facts => ⟨facts.right, facts.left, fun domain right left => facts.disjoint domain left right⟩,
    fun facts => ⟨facts.right, facts.left, fun domain right left => facts.disjoint domain left right⟩⟩

theorem conflicts_congr (lhs rhs : List Route) (perm : lhs.Perm rhs) : conflictsOf request lhs = conflictsOf request rhs := by
  induction perm with
  | nil => rfl
  | cons route perm ih => rw [conflictsOf, conflictsOf, ih, perm.countP_eq]
  | swap first second rest =>
      simp only [conflictsOf, List.countP_cons, independent_comm request second first]
      omega
  | trans _ _ left right => exact left.trans right

theorem flatten_congr (lhs rhs : Assignment) (perm : List.Forall₂ List.Perm lhs rhs) : lhs.flatten.Perm rhs.flatten := by
  induction perm with
  | nil => exact List.Perm.refl _
  | cons here _ ih => exact here.append ih

theorem per_set_congr {γ : Type} (measure : List Route → γ) (congr : ∀ lhs rhs, lhs.Perm rhs → measure lhs = measure rhs)
    (lhs rhs : Assignment) (perm : List.Forall₂ List.Perm lhs rhs) : lhs.map measure = rhs.map measure := by
  induction perm with
  | nil => rfl
  | cons here _ ih => rw [List.map_cons, List.map_cons, congr _ _ here, ih]

theorem load_congr (lhs rhs : List Route) (perm : lhs.Perm rhs) (index : EdgeIndex) :
    load request lhs index = load request rhs index := by rw [load, load, perm.flatten.count_eq]

theorem objective_congr (lhs rhs : Assignment) (perm : List.Forall₂ List.Perm lhs rhs) :
    objective request lhs = objective request rhs := by
  have all := flatten_congr lhs rhs perm
  have cost : totalCost request lhs = totalCost request rhs := (all.map _).sum_eq
  have conflicts : lhs.map (conflictsOf request) = rhs.map (conflictsOf request) :=
    per_set_congr _ (conflicts_congr request) lhs rhs perm
  have largest : largestCost request lhs = largestCost request rhs := (all.map _).foldl_eq 0
  have touched : ∀ index, Touched request lhs index ↔ Touched request rhs index := by
    intro index
    rw [Touched, Touched, all.flatten.mem_iff]
  have spare : headroom request lhs = headroom request rhs := by
    simp only [headroom, touched, load_congr request _ _ all]
  have encoded : encoding request lhs = encoding request rhs := by
    rw [encoding, encoding, List.flatMap_def, List.flatMap_def,
      per_set_congr (fun routes => (canonicalOrder request routes).flatten)
        (fun lhs rhs perm => by rw [canonical_order_congr request lhs rhs perm]) lhs rhs perm]
  rw [objective, objective, cost, siblingConflicts, siblingConflicts, conflicts, largest, spare, encoded]

end Reordered

end Mapping

end PathPlanner
