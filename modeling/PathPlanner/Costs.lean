import PathPlanner.Eligibility
import PathPlanner.FabricStages

set_option autoImplicit false

namespace PathPlanner.Costs

-- The scoring arithmetic on 64-bit words, as the machine carries it out.
def saturatingAddWord (a b ceiling : UInt64) : UInt64 :=
  if a ≥ ceiling ∨ b ≥ ceiling ∨ a > ceiling - b then ceiling else a + b

def saturatingMulWord (a b ceiling : UInt64) : UInt64 :=
  if a = 0 ∨ b = 0 then 0
  else if a ≥ ceiling ∨ b ≥ ceiling then ceiling
  else if a > ceiling / b then ceiling
  else a * b

def costCeiling : UInt64 := UInt64.ofNat kCostCeiling

def utilisationMilli (used capacity : UInt64) : UInt64 := saturatingMulWord used 1000 costCeiling / capacity

def spareMilli (used capacity : UInt64) : UInt64 := 1000 - utilisationMilli used capacity

def latencyTerm (latency weight : UInt64) : UInt64 := saturatingMulWord latency weight costCeiling / 1000

def penalty (weight used capacity : UInt64) : UInt64 :=
  saturatingMulWord weight (utilisationMilli used capacity) costCeiling /
    (if spareMilli used capacity = 0 then 1 else spareMilli used capacity)

def edgeCostWord (latency latencyWeight congestionWeight capacity used : UInt64) : UInt64 :=
  if congestionWeight = 0 ∨ capacity = 0 then latencyTerm latency latencyWeight
  else if used ≥ capacity then costCeiling
  else saturatingAddWord (latencyTerm latency latencyWeight) (penalty congestionWeight used capacity) costCeiling

theorem saturating_add_word (a b ceiling : UInt64) :
    (saturatingAddWord a b ceiling).toNat = saturatingAdd a.toNat b.toNat ceiling.toNat := by
  unfold saturatingAddWord saturatingAdd
  simp only [ge_iff_le, gt_iff_lt, UInt64.le_iff_toNat_le, UInt64.lt_iff_toNat_lt]
  by_cases large : ceiling.toNat ≤ b.toNat
  · rw [if_pos (Or.inr (Or.inl large)), if_pos (Or.inr (Or.inl large))]
  · have room : (ceiling - b).toNat = ceiling.toNat - b.toNat :=
      UInt64.toNat_sub_of_le ceiling b (UInt64.le_iff_toNat_le.mpr (by omega))
    rw [room]
    split
    · rfl
    · rename_i fits
      have bound := ceiling.toNat_lt
      rw [UInt64.toNat_add, Nat.mod_eq_of_lt (by omega)]

theorem saturating_mul_word (a b ceiling : UInt64) :
    (saturatingMulWord a b ceiling).toNat = saturatingMul a.toNat b.toNat ceiling.toNat := by
  have zero (value : UInt64) : value = 0 ↔ value.toNat = 0 := by
    rw [← UInt64.toNat_inj, UInt64.toNat_zero]
  unfold saturatingMulWord saturatingMul
  simp only [ge_iff_le, gt_iff_lt, UInt64.le_iff_toNat_le, UInt64.lt_iff_toNat_lt, UInt64.toNat_div, zero]
  split
  · rfl
  · split
    · rfl
    · split
      · rfl
      · rename_i nonzero _ fits
        have product : a.toNat * b.toNat ≤ ceiling.toNat :=
          (Nat.le_div_iff_mul_le (by omega)).mp (not_lt.mp fits)
        rw [UInt64.toNat_mul, Nat.mod_eq_of_lt (lt_of_le_of_lt product ceiling.toNat_lt)]

-- The product is clamped exactly as the sum is.
theorem saturating_mul_eq (a b ceiling : Nat) : saturatingMul a b ceiling = min ceiling (a * b) := by
  unfold saturatingMul
  split
  · rename_i zero
    rcases zero with rfl | rfl <;> simp
  · rename_i nonzero
    have first : a ≤ a * b := Nat.le_mul_of_pos_right a (by omega)
    have second : b ≤ a * b := Nat.le_mul_of_pos_left b (by omega)
    have quotient : a ≤ ceiling / b ↔ a * b ≤ ceiling := Nat.le_div_iff_mul_le (by omega)
    split
    · rw [min_eq_left (by omega)]
    · split
      · rw [min_eq_left (by omega)]
      · rw [min_eq_right (by omega)]

@[simp] theorem cost_ceiling_nat : costCeiling.toNat = kCostCeiling := rfl

theorem utilisation_word (used capacity : UInt64) :
    (utilisationMilli used capacity).toNat = saturatingMul used.toNat 1000 kCostCeiling / capacity.toNat := by
  rw [utilisationMilli, UInt64.toNat_div, saturating_mul_word]
  rfl

-- A used share below the whole is at most 999 thousandths.
theorem utilisation_le (used capacity : Nat) (spare : used < capacity) : saturatingMul used 1000 kCostCeiling / capacity ≤ 999 := by
  have product : min kCostCeiling (used * 1000) < 1000 * capacity :=
    lt_of_le_of_lt (min_le_right kCostCeiling (used * 1000)) (by omega)
  rw [saturating_mul_eq]
  exact Nat.le_of_lt_succ ((Nat.div_lt_iff_lt_mul (by omega)).mpr product)

theorem spare_word (used capacity : UInt64) (spare : used.toNat < capacity.toNat) :
    (spareMilli used capacity).toNat = 1000 - saturatingMul used.toNat 1000 kCostCeiling / capacity.toNat := by
  have least := utilisation_le _ _ spare
  rw [← utilisation_word] at least ⊢
  exact UInt64.toNat_sub_of_le _ _ (UInt64.le_iff_toNat_le.mpr (least.trans (by decide)))

-- On words of any values the machine's arithmetic never wraps.
theorem edge_cost_word (policy : Policy) (edge : Edge) (latency latencyWeight congestionWeight capacity used : UInt64)
    (latencyIs : latency.toNat = edge.latencyMicros) (latencyWeightIs : latencyWeight.toNat = policy.latencyWeightMilli)
    (congestionWeightIs : congestionWeight.toNat = policy.congestionWeightMilli)
    (capacityIs : capacity.toNat = edge.capacityMbps) (usedIs : used.toNat = edge.reservedMbps) :
    (edgeCostWord latency latencyWeight congestionWeight capacity used).toNat = edgeCostOf policy edge := by
  have zero (value : UInt64) : value = 0 ↔ value.toNat = 0 := by
    rw [← UInt64.toNat_inj, UInt64.toNat_zero]
  have term : (latencyTerm latency latencyWeight).toNat =
      saturatingMul edge.latencyMicros policy.latencyWeightMilli kCostCeiling / 1000 := by
    rw [latencyTerm, UInt64.toNat_div, saturating_mul_word, latencyIs, latencyWeightIs]
    rfl
  unfold edgeCostWord edgeCostOf
  simp only [ge_iff_le, UInt64.le_iff_toNat_le, zero, capacityIs, congestionWeightIs, usedIs]
  split
  · exact term
  · split
    · rfl
    · rename_i _ some
      have below : used.toNat < capacity.toNat := by omega
      have share := spare_word used capacity below
      have divisor : (if spareMilli used capacity = 0 then (1 : UInt64) else spareMilli used capacity).toNat =
          if (spareMilli used capacity).toNat = 0 then 1 else (spareMilli used capacity).toNat := by
        simp only [zero]
        split <;> rfl
      rw [saturating_add_word, term, penalty, UInt64.toNat_div, saturating_mul_word, utilisation_word, divisor, share,
        congestionWeightIs, usedIs, capacityIs, cost_ceiling_nat]

section Accepted

variable (spec : FabricSpec) (fabric : FabricGraph) (built : FabricGraph.build spec = .ok fabric)
  (edge : Edge) (listed : edge ∈ fabric.edges) (policy : Policy) (validated : policy.validate = .ok ())

-- The formula the cost stands for, in whole numbers without a ceiling.
def exactCost (policy : Policy) (edge : Edge) : Nat :=
  let utilisation := 1000 * edge.reservedMbps / edge.capacityMbps
  edge.latencyMicros * policy.latencyWeightMilli / 1000 + policy.congestionWeightMilli * utilisation / (1000 - utilisation)

include built listed

theorem utilisation_exact : saturatingMul edge.reservedMbps 1000 kCostCeiling = 1000 * edge.reservedMbps := by
  have sound := FabricGraph.build_sound spec fabric built
  have reserved := sound.reserved edge listed
  have capacity := sound.capacity edge listed
  rw [saturating_mul_eq, Nat.mul_comm, min_eq_right]
  unfold kCostCeiling kMaxCapacityMbps at *
  omega

include validated

theorem latency_exact : saturatingMul edge.latencyMicros policy.latencyWeightMilli kCostCeiling =
    edge.latencyMicros * policy.latencyWeightMilli ∧ edge.latencyMicros * policy.latencyWeightMilli < 2 ^ 61 := by
  have latency := (FabricGraph.build_sound spec fabric built).latency edge listed
  have weight := (Policy.validate_sound policy validated).weights.1
  have product : edge.latencyMicros * policy.latencyWeightMilli < 2 ^ 61 :=
    lt_of_le_of_lt (Nat.mul_le_mul latency weight) (by decide)
  refine ⟨?_, product⟩
  rw [saturating_mul_eq, min_eq_right]
  exact product.le.trans (by decide)

theorem edge_cost_exact (spare : edge.reservedMbps < edge.capacityMbps) :
    edgeCostOf policy edge = exactCost policy edge ∧ exactCost policy edge < kCostCeiling := by
  have weight := (Policy.validate_sound policy validated).weights.2
  obtain ⟨term, small⟩ := latency_exact spec fabric built edge listed policy validated
  have used := utilisation_exact spec fabric built edge listed
  have share := utilisation_le _ _ spare
  rw [used] at share
  have product : policy.congestionWeightMilli * (1000 * edge.reservedMbps / edge.capacityMbps) ≤ kMaxScoringWeightMilli * 999 :=
    Nat.mul_le_mul weight share
  have quotient := Nat.div_le_self (policy.congestionWeightMilli * (1000 * edge.reservedMbps / edge.capacityMbps))
    (1000 - 1000 * edge.reservedMbps / edge.capacityMbps)
  have total : exactCost policy edge < kCostCeiling := by
    unfold exactCost kCostCeiling kMaxScoringWeightMilli at *
    dsimp only
    omega
  refine ⟨?_, total⟩
  unfold edgeCostOf
  simp only [used, term]
  split
  · rename_i plain
    rcases plain with weightless | empty
    · simp [exactCost, weightless]
    · omega
  · rw [if_neg (by omega), if_neg (by omega), saturating_mul_eq, min_eq_right (product.trans (by decide)), saturating_add_clamps,
      Clamped.clampAdd]
    exact min_eq_right total.le

theorem edge_cost_le : edgeCostOf policy edge ≤ kCostCeiling := by
  obtain ⟨term, small⟩ := latency_exact spec fabric built edge listed policy validated
  have quotient := Nat.div_le_self (edge.latencyMicros * policy.latencyWeightMilli) 1000
  by_cases spare : edge.reservedMbps < edge.capacityMbps
  · obtain ⟨same, below⟩ := edge_cost_exact spec fabric built edge listed policy validated spare
    exact same.le.trans below.le
  · unfold edgeCostOf
    simp only [term]
    split
    · exact quotient.trans (small.le.trans (by decide))
    · rw [if_pos (not_lt.mp spare)]

end Accepted

theorem exact_cost_mono (policy : Policy) (edge other : Edge) (capacity : other.capacityMbps = edge.capacityMbps)
    (spare : other.reservedMbps < other.capacityMbps) (latency : edge.latencyMicros ≤ other.latencyMicros)
    (reserved : edge.reservedMbps ≤ other.reservedMbps) : exactCost policy edge ≤ exactCost policy other := by
  have used : 1000 * edge.reservedMbps / edge.capacityMbps ≤ 1000 * other.reservedMbps / other.capacityMbps := by
    rw [capacity]
    exact Nat.div_le_div_right (Nat.mul_le_mul_left 1000 reserved)
  have below : 1000 * other.reservedMbps / other.capacityMbps < 1000 :=
    (Nat.div_lt_iff_lt_mul (by omega)).mpr (Nat.mul_lt_mul_of_pos_left spare (by decide))
  apply Nat.add_le_add
  · exact Nat.div_le_div_right (Nat.mul_le_mul_right _ latency)
  · exact Nat.div_le_div (Nat.mul_le_mul_left _ used) (by omega) (by omega)

theorem edge_cost_mono (spec spec' : FabricSpec) (fabric fabric' : FabricGraph) (built : FabricGraph.build spec = .ok fabric)
    (built' : FabricGraph.build spec' = .ok fabric') (edge edge' : Edge) (listed : edge ∈ fabric.edges)
    (listed' : edge' ∈ fabric'.edges) (policy : Policy) (validated : policy.validate = .ok ())
    (capacity : edge'.capacityMbps = edge.capacityMbps) (latency : edge.latencyMicros ≤ edge'.latencyMicros)
    (reserved : edge.reservedMbps ≤ edge'.reservedMbps) : edgeCostOf policy edge ≤ edgeCostOf policy edge' := by
  by_cases spare : edge'.reservedMbps < edge'.capacityMbps
  · rw [(edge_cost_exact spec' fabric' built' edge' listed' policy validated spare).1,
      (edge_cost_exact spec fabric built edge listed policy validated (by omega)).1]
    exact exact_cost_mono policy edge edge' capacity spare latency reserved
  · by_cases plain : policy.congestionWeightMilli = 0 ∨ edge.capacityMbps = 0
    · have term := (latency_exact spec fabric built edge listed policy validated).1
      have term' := (latency_exact spec' fabric' built' edge' listed' policy validated).1
      simp only [edgeCostOf, capacity, if_pos plain, term, term']
      exact Nat.div_le_div_right (Nat.mul_le_mul_right _ latency)
    · have full : edgeCostOf policy edge' = kCostCeiling := by
        simp only [edgeCostOf, capacity, if_neg plain]
        rw [if_pos (by omega)]
      rw [full]
      exact edge_cost_le spec fabric built edge listed policy validated

-- An edge's fields as the machine holds them.
def edgeCostBits (policy : Policy) (edge : Edge) : UInt64 :=
  edgeCostWord (UInt64.ofNat edge.latencyMicros) (UInt64.ofNat policy.latencyWeightMilli)
    (UInt64.ofNat policy.congestionWeightMilli) (UInt64.ofNat edge.capacityMbps) (UInt64.ofNat edge.reservedMbps)

def utilisationBits (edge : Edge) : UInt64 := utilisationMilli (UInt64.ofNat edge.reservedMbps) (UInt64.ofNat edge.capacityMbps)

def spareBits (edge : Edge) : UInt64 := spareMilli (UInt64.ofNat edge.reservedMbps) (UInt64.ofNat edge.capacityMbps)

-- The exact value of everything the scoring of an edge with spare capacity computes on its way.
def intermediates (policy : Policy) (edge : Edge) : List Nat :=
  let utilisation := 1000 * edge.reservedMbps / edge.capacityMbps
  [edge.latencyMicros * policy.latencyWeightMilli, edge.reservedMbps * 1000, utilisation,
    policy.congestionWeightMilli * utilisation, exactCost policy edge]

-- What the scoring of one edge owes its readers.
structure Scored (policy : Policy) (edge : Edge) : Prop where
  machine : (edgeCostBits policy edge).toNat = edgeCostOf policy edge
  ceiling : edgeCostOf policy edge ≤ kCostCeiling
  latencyProduct : edge.latencyMicros * policy.latencyWeightMilli < 2 ^ 64
  unwrapped : edge.reservedMbps < edge.capacityMbps → ∀ value ∈ intermediates policy edge, value < 2 ^ 64
  utilisation : edge.reservedMbps < edge.capacityMbps →
    (utilisationBits edge).toNat = 1000 * edge.reservedMbps / edge.capacityMbps ∧ (utilisationBits edge).toNat ≤ 999
  spare : edge.reservedMbps < edge.capacityMbps → 1 ≤ (spareBits edge).toNat ∧ (spareBits edge).toNat ≤ 1000
  exact : edge.reservedMbps < edge.capacityMbps → edgeCostOf policy edge = exactCost policy edge

theorem edge_scored (spec : FabricSpec) (fabric : FabricGraph) (built : FabricGraph.build spec = .ok fabric) (edge : Edge)
    (listed : edge ∈ fabric.edges) (policy : Policy) (validated : policy.validate = .ok ()) : Scored policy edge := by
  have sound := FabricGraph.build_sound spec fabric built
  have weights := (Policy.validate_sound policy validated).weights
  have reserved := sound.reserved edge listed
  have capacity := sound.capacity edge listed
  have latency := sound.latency edge listed
  have product := (latency_exact spec fabric built edge listed policy validated).2
  have word (value : Nat) (small : value ≤ 2 ^ 40) : (UInt64.ofNat value).toNat = value := by
    rw [UInt64.toNat_ofNat', Nat.mod_eq_of_lt (lt_of_le_of_lt small (by decide))]
  have usedWord := word edge.reservedMbps (reserved.trans capacity)
  have capacityWord := word edge.capacityMbps capacity
  have used := utilisation_exact spec fabric built edge listed
  have share : (utilisationBits edge).toNat = 1000 * edge.reservedMbps / edge.capacityMbps := by
    rw [utilisationBits, utilisation_word, usedWord, capacityWord, used]
  have least (spare : edge.reservedMbps < edge.capacityMbps) := used ▸ utilisation_le _ _ spare
  exact {
    machine := edge_cost_word policy edge _ _ _ _ _ (word _ latency) (word _ (weights.1.trans (by decide)))
      (word _ (weights.2.trans (by decide))) capacityWord usedWord
    ceiling := edge_cost_le spec fabric built edge listed policy validated
    latencyProduct := product.trans (by decide)
    unwrapped := by
      intro spare value member
      have total := (edge_cost_exact spec fabric built edge listed policy validated spare).2
      have below := least spare
      have scaled : policy.congestionWeightMilli * (1000 * edge.reservedMbps / edge.capacityMbps) ≤ kMaxScoringWeightMilli * 999 :=
        Nat.mul_le_mul weights.2 below
      simp only [intermediates, List.mem_cons, List.not_mem_nil, or_false] at member
      unfold kMaxScoringWeightMilli kCostCeiling kMaxCapacityMbps at *
      rcases member with rfl | rfl | rfl | rfl | rfl <;> omega
    utilisation := fun spare => ⟨share, share.le.trans (least spare)⟩
    spare := by
      intro spare
      have rest : (spareBits edge).toNat = 1000 - 1000 * edge.reservedMbps / edge.capacityMbps := by
        rw [spareBits, spare_word _ _ (by rw [usedWord, capacityWord]; exact spare), usedWord, capacityWord, used]
      have below := least spare
      omega
    exact := fun spare => (edge_cost_exact spec fabric built edge listed policy validated spare).1 }

theorem fold_words (costs : List UInt64) :
    (costs.foldl (fun total cost => saturatingAddWord total cost costCeiling) 0).toNat =
      min kCostCeiling (costs.map UInt64.toNat).sum := by
  have folded (start : UInt64) : (costs.foldl (fun total cost => saturatingAddWord total cost costCeiling) start).toNat =
      (costs.map UInt64.toNat).foldl (fun total cost => saturatingAdd total cost kCostCeiling) start.toNat := by
    induction costs generalizing start with
    | nil => rfl
    | cons cost rest ih => rw [List.foldl_cons, ih, saturating_add_word, List.map_cons, List.foldl_cons, cost_ceiling_nat]
  rw [folded]
  exact saturating_sum_eq _

theorem cost_arithmetic_exact (policy : Policy) (validated : policy.validate = .ok ()) :
    (∀ spec fabric, FabricGraph.build spec = .ok fabric → ∀ edge ∈ fabric.edges, Scored policy edge ∧
      ∀ spec' fabric', FabricGraph.build spec' = .ok fabric' → ∀ edge' ∈ fabric'.edges,
        edge'.capacityMbps = edge.capacityMbps → edge.latencyMicros ≤ edge'.latencyMicros →
        edge.reservedMbps ≤ edge'.reservedMbps → edgeCostOf policy edge ≤ edgeCostOf policy edge') ∧
    (∀ costs order : List UInt64, order.Perm costs →
      (order.foldl (fun total cost => saturatingAddWord total cost costCeiling) 0).toNat =
        min kCostCeiling (costs.map UInt64.toNat).sum) := by
  refine ⟨?_, ?_⟩
  · intro spec fabric built edge listed
    refine ⟨edge_scored spec fabric built edge listed policy validated, ?_⟩
    intro spec' fabric' built' edge' listed' capacity latency reserved
    exact edge_cost_mono spec spec' fabric fabric' built built' edge edge' listed listed' policy validated capacity latency reserved
  · intro costs order permuted
    rw [fold_words, (permuted.map UInt64.toNat).sum_eq]

def congested : Policy := { generation := ⟨1⟩, congestionWeightMilli := 500 }

theorem congested_scored : ∃ fabric, FabricGraph.build Sample.nested = .ok fabric ∧ ∀ edge ∈ fabric.edges, Scored congested edge := by
  obtain ⟨fabric, built⟩ := FabricGraph.accepted_graph Sample.nested Sample.nested_accepted
  refine ⟨fabric, built, fun edge listed => ?_⟩
  exact ((cost_arithmetic_exact congested (by decide +kernel)).1 Sample.nested fabric built edge listed).1

end PathPlanner.Costs
