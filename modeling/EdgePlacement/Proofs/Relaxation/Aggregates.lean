import Mathlib.Algebra.BigOperators.Ring.Finset
import Mathlib.Algebra.Order.BigOperators.Group.Finset
import Mathlib.Algebra.Order.Ring.Rat
import EdgePlacement.Proofs.Relaxation.Statements

/-!
# What the totals of an instance say

An assignment in fractions spreads the need of every service over the nodes and loses none of it.
Where one exists, no dimension therefore asks for more than all nodes together offer, and the check
of the totals passes. With a single node the totals are all there is to know.
-/

namespace EdgePlacement.Relaxation

set_option autoImplicit false

structure Shaped {α : Type} (r : Relaxation α) : Prop where
  capacities : r.capacities.length = r.nodeCount
  requirements : r.requirements.length = r.serviceCount

structure Feasible (r : Relaxation Rat) (x : Fin r.serviceCount → Fin r.nodeCount → Rat) :
    Prop where
  nonneg : ∀ i j, 0 ≤ x i j
  assigned : ∀ i, ∑ j, x i j = 1
  capacity : ∀ j d, ∑ i : Fin r.serviceCount, r.requirement i d * x i j ≤ r.capacity j d

/-- Some service asks for the dimension, and all services together ask for more of it than all nodes
offer, by more than the tolerance. -/
structure Exceeds (r : Relaxation Rat) (tolerance : Rat) (d : Dimension) : Prop where
  asked : ∃ i : Fin r.serviceCount, 0 < r.requirement i d
  beyond : ∑ j : Fin r.nodeCount, r.capacity j d + tolerance <
    ∑ i : Fin r.serviceCount, r.requirement i d

structure FirstExceeded (r : Relaxation Rat) (tolerance : Rat) (d : Dimension) : Prop where
  exceeds : r.Exceeds tolerance d
  first : ∃ before after, Dimension.all = before ++ d :: after ∧
    ∀ earlier ∈ before, ¬ r.Exceeds tolerance earlier

variable {r : Relaxation Rat}

/-! ## Totals -/

theorem total_by_position {ι : Type} (values : List ι) (f : ι → Rat) (absent : ι) {count : Nat}
    (sized : values.length = count) :
    Quantity.total (values.map f) = ∑ k : Fin count, f (values.getD k absent) := by
  subst sized
  rw [Quantity.total_eq_sum, ← Fin.sum_univ_fun_getElem]
  apply Finset.sum_congr rfl
  intro k _
  rw [List.getD_eq_getElem _ _ k.isLt]

theorem Shaped.demand_sum (shaped : r.Shaped) (d : Dimension) :
    r.demandOf d = ∑ i : Fin r.serviceCount, r.requirement i d :=
  total_by_position r.requirements (·.get d) 0 shaped.requirements

theorem Shaped.supply_sum (shaped : r.Shaped) (d : Dimension) :
    r.supplyOf d = ∑ j : Fin r.nodeCount, r.capacity j d :=
  total_by_position r.capacities (·.get d) 0 shaped.capacities

theorem Shaped.active_iff (shaped : r.Shaped) (d : Dimension) :
    r.isActive d = true ↔ ∃ i : Fin r.serviceCount, 0 < r.requirement i d := by
  unfold isActive requirement
  rw [List.any_eq_true]
  constructor
  · rintro ⟨need, member, asked⟩
    obtain ⟨i, inside, rfl⟩ := List.getElem_of_mem member
    refine ⟨⟨i, shaped.requirements ▸ inside⟩, ?_⟩
    rw [List.getD_eq_getElem _ _ inside]
    exact of_decide_eq_true asked
  · rintro ⟨i, asked⟩
    have inside : (i : Nat) < r.requirements.length := shaped.requirements.symm ▸ i.isLt
    rw [List.getD_eq_getElem _ _ inside] at asked
    exact ⟨_, List.getElem_mem inside, decide_eq_true asked⟩

theorem Shaped.exceeds_iff (shaped : r.Shaped) (tolerance : Rat) (d : Dimension) :
    r.Exceeds tolerance d ↔
      r.isActive d = true ∧ r.supplyOf d + tolerance < r.demandOf d := by
  rw [shaped.active_iff, shaped.demand_sum, shaped.supply_sum]
  exact ⟨fun exceeds => ⟨exceeds.asked, exceeds.beyond⟩, fun both => ⟨both.1, both.2⟩⟩

/-! ## The check -/

/-- The dimension that the check stops at. -/
theorem Shaped.first_exceeded_iff (shaped : r.Shaped) (tolerance : Rat) (d : Dimension) :
    (r.activeDimensions.find? fun d => decide (r.supplyOf d + tolerance < r.demandOf d)) = some d ↔
      r.FirstExceeded tolerance d := by
  unfold activeDimensions
  rw [List.find?_filter, List.find?_eq_some_iff_append]
  simp only [decide_eq_true_eq, Bool.not_eq_true', decide_eq_false_iff_not, ← shaped.exceeds_iff]
  exact ⟨fun found => ⟨found.1, found.2⟩, fun first => ⟨first.exceeds, first.first⟩⟩

theorem Shaped.check_fault_iff (shaped : r.Shaped) (tolerance : Rat) (fault : Fault Rat) :
    r.checkAggregate tolerance = .error fault ↔
      ∃ d, r.FirstExceeded tolerance d ∧ fault = .aggregateExceeded d
        (∑ i : Fin r.serviceCount, r.requirement i d) (∑ j : Fin r.nodeCount, r.capacity j d) := by
  unfold checkAggregate
  simp only [← shaped.first_exceeded_iff, ← shaped.demand_sum, ← shaped.supply_sum]
  cases r.activeDimensions.find? fun d => decide (r.supplyOf d + tolerance < r.demandOf d) with
  | none => simp
  | some d => simp [eq_comm]

theorem Shaped.check_passes_iff (shaped : r.Shaped) (tolerance : Rat) :
    r.checkAggregate tolerance = .ok () ↔ ∀ d, ¬ r.Exceeds tolerance d := by
  have listed : ∀ d, d ∈ r.activeDimensions ↔ r.isActive d = true := by
    intro d
    rw [activeDimensions, List.mem_filter]
    exact and_iff_right (Resources.dimension_listed d)
  have passes : r.checkAggregate tolerance = .ok () ↔
      (r.activeDimensions.find? fun d => decide (r.supplyOf d + tolerance < r.demandOf d)) =
        none := by
    unfold checkAggregate
    cases r.activeDimensions.find? fun d => decide (r.supplyOf d + tolerance < r.demandOf d) <;>
      simp
  rw [passes, List.find?_eq_none]
  simp only [listed, decide_eq_true_eq, shaped.exceeds_iff, not_and]

/-! ## Assignments -/

/-- Summed over the nodes, the shares of a service make up all that it needs. -/
theorem Feasible.demand_within_supply {x : Fin r.serviceCount → Fin r.nodeCount → Rat}
    (feasible : r.Feasible x) (d : Dimension) :
    ∑ i : Fin r.serviceCount, r.requirement i d ≤ ∑ j : Fin r.nodeCount, r.capacity j d := by
  calc ∑ i : Fin r.serviceCount, r.requirement i d
      = ∑ i : Fin r.serviceCount, r.requirement i d * ∑ j, x i j := by
        simp only [feasible.assigned, mul_one]
    _ = ∑ i : Fin r.serviceCount, ∑ j, r.requirement i d * x i j := by
        simp only [Finset.mul_sum]
    _ = ∑ j, ∑ i : Fin r.serviceCount, r.requirement i d * x i j := Finset.sum_comm
    _ ≤ ∑ j : Fin r.nodeCount, r.capacity j d :=
        Finset.sum_le_sum fun j _ => feasible.capacity j d

theorem Feasible.none_exceeded {x : Fin r.serviceCount → Fin r.nodeCount → Rat}
    (feasible : r.Feasible x) {tolerance : Rat} (tolerant : 0 ≤ tolerance) (d : Dimension) :
    ¬ r.Exceeds tolerance d := by
  intro exceeds
  have within := feasible.demand_within_supply d
  exact absurd exceeds.beyond (not_lt.mpr (within.trans (le_add_of_nonneg_right tolerant)))

/-- On a single node everything is assigned to it, and it is loaded with the totals. -/
theorem feasible_on_single_node (notNegative : r.NotNegative) (single : r.nodeCount = 1)
    (within : ∀ d, ¬ r.Exceeds 0 d) : r.Feasible fun _ _ => 1 := by
  have alone : Subsingleton (Fin r.nodeCount) := by
    rw [single]
    infer_instance
  refine ⟨fun _ _ => zero_le_one, fun i => ?_, fun j d => ?_⟩
  · rw [Finset.sum_const, Finset.card_univ, Fintype.card_fin, single, one_nsmul]
  · simp only [mul_one]
    by_cases asked : ∃ i : Fin r.serviceCount, 0 < r.requirement i d
    · have total := not_lt.mp fun beyond => within d ⟨asked, beyond⟩
      rwa [add_zero, Fintype.sum_subsingleton _ j] at total
    · have unasked : ∀ i ∈ Finset.univ, (r.requirement (i : Fin r.serviceCount) d : Rat) ≤ 0 :=
        fun i _ => not_lt.mp fun positive => asked ⟨i, positive⟩
      exact (Finset.sum_nonpos unasked).trans (notNegative.capacities j d)

/-- The check of the totals refuses nothing that can be assigned in fractions. What it reports is
the first dimension in which the services together ask for more than the nodes offer, with both
totals; and on a single node it refuses exactly what cannot be assigned. -/
theorem aggregate_check_refuses_nothing_feasible (r : Relaxation Rat) (shaped : r.Shaped)
    (capacities : ∀ c ∈ r.capacities, c.isNegative = false)
    (requirements : ∀ need ∈ r.requirements, need.isNegative = false) :
    (∀ tolerance, 0 ≤ tolerance → (∃ x, r.Feasible x) → r.checkAggregate tolerance = .ok ()) ∧
    (∀ tolerance fault, r.checkAggregate tolerance = .error fault ↔
      ∃ d, r.FirstExceeded tolerance d ∧ fault = .aggregateExceeded d
        (∑ i : Fin r.serviceCount, r.requirement i d)
        (∑ j : Fin r.nodeCount, r.capacity j d)) ∧
    (r.nodeCount = 1 →
      ((∃ fault, r.checkAggregate 0 = .error fault) ↔ ¬ ∃ x, r.Feasible x)) := by
  have notNegative := not_negative_of_accepted capacities requirements
  refine ⟨?_, shaped.check_fault_iff, fun single => ?_⟩
  · rintro tolerance tolerant ⟨x, feasible⟩
    exact (shaped.check_passes_iff tolerance).mpr (feasible.none_exceeded tolerant)
  · constructor
    · rintro ⟨fault, refused⟩ ⟨x, feasible⟩
      obtain ⟨d, first, -⟩ := (shaped.check_fault_iff 0 fault).mp refused
      exact feasible.none_exceeded le_rfl d first.exceeds
    · intro infeasible
      cases checked : r.checkAggregate 0 with
      | error fault => exact ⟨fault, rfl⟩
      | ok passed =>
          have within := (shaped.check_passes_iff 0).mp checked
          exact absurd ⟨_, feasible_on_single_node notNegative single within⟩ infeasible

def splitInstance : Relaxation Rat where
  nodeNames := ["a", "b"]
  capacities := [⟨3, 1, 0, 0⟩, ⟨3, 0, 2, 0⟩]
  serviceNames := ["s", "t", "u"]
  requirements := [⟨2, 1, 0, 0⟩, ⟨2, 0, 0, 0⟩, ⟨2, 0, 0, 0⟩]
  costs := [1, 1, 1]

def splitFractions (i : Fin 3) (j : Fin 2) : Rat :=
  if i = 2 then 1 / 2 else if i.val = j.val then 1 else 0

def overloadedInstance : Relaxation Rat where
  nodeNames := ["a"]
  capacities := [⟨3, 1, 0, 1⟩]
  serviceNames := ["s", "t"]
  requirements := [⟨1, 1, 0, 0⟩, ⟨2, 1, 0, 2⟩]
  costs := [1, 1]

theorem split_instance_feasible : splitInstance.Feasible splitFractions := by
  refine ⟨?_, ?_, fun j d => ?_⟩
  · change ∀ i j, 0 ≤ splitFractions i j
    decide +kernel
  · change ∀ i, ∑ j, splitFractions i j = 1
    decide +kernel
  · revert j
    cases d <;> decide +kernel

theorem split_instance_passes_and_overloaded_is_refused :
    splitInstance.checkAggregate 0 = .ok () ∧
    (∃ d, overloadedInstance.FirstExceeded 0 d ∧
      overloadedInstance.checkAggregate 0 = .error (.aggregateExceeded d 2 1)) ∧
    ¬ ∃ x, overloadedInstance.Feasible x := by
  obtain ⟨passes, -, -⟩ := aggregate_check_refuses_nothing_feasible splitInstance ⟨rfl, rfl⟩
    (by decide) (by decide)
  obtain ⟨-, reported, refused⟩ := aggregate_check_refuses_nothing_feasible overloadedInstance
    ⟨rfl, rfl⟩ (by decide) (by decide)
  have stops : (overloadedInstance.activeDimensions.find? fun d =>
      decide (overloadedInstance.supplyOf d + 0 < overloadedInstance.demandOf d)) =
        some .compute := by decide +kernel
  have demand : overloadedInstance.demandOf .compute = 2 := by decide +kernel
  have supply : overloadedInstance.supplyOf .compute = 1 := by decide +kernel
  have checked : overloadedInstance.checkAggregate 0 =
      .error (.aggregateExceeded .compute 2 1) := by
    unfold checkAggregate
    rw [stops]
    dsimp only
    rw [demand, supply]
  obtain ⟨d, first, same⟩ := (reported 0 _).mp checked
  refine ⟨passes 0 le_rfl ⟨splitFractions, split_instance_feasible⟩, ⟨d, first, ?_⟩,
    (refused rfl).mp ⟨_, checked⟩⟩
  obtain rfl : Dimension.compute = d := (Fault.aggregateExceeded.inj same).1
  exact checked

end EdgePlacement.Relaxation
