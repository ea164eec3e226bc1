import Mathlib.Data.List.GetD
import EdgePlacement.Proofs.Relaxation.Rows
import EdgePlacement.Proofs.Resources

/-!
# One relaxation in two statements

The matrix program and the named program admit the same fractional assignments, and these are the
ones that keep every capacity in every dimension. Dimensions in which nothing is asked for have no
rows; as requirements and capacities are not below zero, they hold by themselves.
-/

namespace EdgePlacement

open EdgePlacement.Decimal

set_option autoImplicit false

/-! ## Admitted points -/

def Fractions.entry (x : Fractions Rat) (service node : Nat) : Rat :=
  (x.rows.getD service []).getD node 0

structure MatrixProgram.Admits (p : MatrixProgram Rat) (v : List Rat) : Prop where
  upper : ∀ row ∈ p.upper, formValue row.1 v ≤ row.2
  equal : ∀ row ∈ p.equal, formValue row.1 v = row.2
  bounds : ∀ x ∈ v, p.least ≤ x ∧ x ≤ p.most

def NamedConstraint.Holds (c : NamedConstraint Rat) (v : Share → Rat) : Prop :=
  match c.sense with
  | .equal => NamedProgram.formValue c.terms v = c.bound
  | .atMost => NamedProgram.formValue c.terms v ≤ c.bound

structure NamedProgram.Admits (p : NamedProgram Rat) (v : Share → Rat) : Prop where
  constraints : ∀ c ∈ p.constraints, c.Holds v
  bounds : ∀ share ∈ p.shares, p.least ≤ v share ∧ v share ≤ p.most

/-- The relaxation that both programs are meant to state: each service is assigned once in fractions
of one, and no node is loaded beyond its capacity in any dimension. -/
structure FractionalPlacement (nodes : List (Node Rat)) (services : List (Service Rat))
    (x : Fin services.length → Fin nodes.length → Rat) : Prop where
  assigned : ∀ i, ∑ j, x i j = 1
  fractional : ∀ i j, 0 ≤ x i j ∧ x i j ≤ 1
  capacity : ∀ j d, ∑ i, services[i].requirements.get d * x i j ≤ nodes[j].capacity.get d

namespace Relaxation

/-- The relaxation by positions, with capacities in the given dimensions only. -/
structure Relaxed (r : Relaxation Rat) (dimensions : List Dimension) (x : Nat → Nat → Rat) :
    Prop where
  assigned : ∀ i < r.serviceCount, (r.nodeIndices.map (x i)).sum = 1
  fractional : ∀ i < r.serviceCount, ∀ j < r.nodeCount, 0 ≤ x i j ∧ x i j ≤ 1
  capacity : ∀ j < r.nodeCount, ∀ d ∈ dimensions,
    (r.serviceIndices.map fun i => r.requirement i d * x i j).sum ≤ r.capacity j d

variable {r : Relaxation Rat}

/-! ## The matrix program -/

theorem assignment_row_value (r : Relaxation Rat) {service : Nat}
    (listed : service < r.serviceCount) (v : List Rat) :
    MatrixProgram.formValue (r.assignmentRow service) v =
      (r.nodeIndices.map fun j => v.getD (r.position ⟨service, j⟩) 0).sum := by
  unfold assignmentRow
  rw [r.row_of_value]
  · simp only [one_mul]
  · apply List.Nodup.map _ List.nodup_range
    intro j j' same
    exact congrArg Share.node same
  · intro j member
    exact (r.mem_shares_iff _).mpr ⟨listed, List.mem_range.mp member⟩

theorem capacity_row_value (r : Relaxation Rat) {node : Nat} (listed : node < r.nodeCount)
    (d : Dimension) (v : List Rat) :
    MatrixProgram.formValue (r.capacityRow node d) v =
      (r.serviceIndices.map fun i => r.requirement i d * v.getD (r.position ⟨i, node⟩) 0).sum := by
  unfold capacityRow
  apply r.row_of_value
  · apply List.Nodup.map _ List.nodup_range
    intro i i' same
    exact congrArg Share.service same
  · intro i member
    exact (r.mem_shares_iff _).mpr ⟨List.mem_range.mp member, listed⟩

theorem shares_nodup (r : Relaxation Rat) : r.shares.Nodup := by
  apply List.Nodup.of_map r.position
  rw [shares_positions]
  exact List.nodup_range

theorem cost_row_value (r : Relaxation Rat) (v : List Rat) :
    MatrixProgram.formValue r.costRow v =
      (r.shares.map fun share => r.cost share.service * v.getD (r.position share) 0).sum := by
  unfold costRow
  apply r.row_of_value
  · rw [List.map_id]
    exact r.shares_nodup
  · exact fun share member => member

theorem bounds_iff_shares (v : List Rat) (sized : v.length = r.serviceCount * r.nodeCount)
    (holds : Rat → Prop) :
    (∀ x ∈ v, holds x) ↔
      ∀ i < r.serviceCount, ∀ j < r.nodeCount, holds (v.getD (r.position ⟨i, j⟩) 0) := by
  have lengths : v.length = r.shares.length := by rw [sized, shares_length]
  constructor
  · intro all i service j node
    have inside := r.position_inside ((r.mem_shares_iff ⟨i, j⟩).mpr ⟨service, node⟩)
    rw [← lengths] at inside
    rw [List.getD_eq_getElem _ _ inside]
    exact all _ (List.getElem_mem inside)
  · intro all x member
    obtain ⟨k, inside, rfl⟩ := List.getElem_of_mem member
    have listed : k ∈ r.shares.map r.position := by
      rw [shares_positions, List.mem_range, ← sized]
      exact inside
    obtain ⟨share, isShare, rfl⟩ := List.mem_map.mp listed
    obtain ⟨service, node⟩ := (r.mem_shares_iff share).mp isShare
    have bound := all share.service service share.node node
    rwa [List.getD_eq_getElem _ _ inside] at bound

theorem matrix_admits_iff (v : List Rat) (sized : v.length = r.serviceCount * r.nodeCount) :
    r.matrixProgram.Admits v ↔
      r.Relaxed r.activeDimensions fun i j => v.getD (r.position ⟨i, j⟩) 0 := by
  constructor
  · intro admits
    constructor
    · intro i listed
      have row : (r.assignmentRow i, (1 : Rat)) ∈ r.matrixProgram.equal :=
        List.mem_map.mpr ⟨i, List.mem_range.mpr listed, rfl⟩
      rw [← r.assignment_row_value listed]
      exact admits.equal _ row
    · exact (bounds_iff_shares v sized _).mp admits.bounds
    · intro j listed d active
      have row : (r.capacityRow j d, r.capacity j d) ∈ r.matrixProgram.upper :=
        List.mem_flatMap.mpr ⟨j, List.mem_range.mpr listed, List.mem_map.mpr ⟨d, active, rfl⟩⟩
      rw [← r.capacity_row_value listed]
      exact admits.upper _ row
  · intro relaxed
    constructor
    · intro row member
      obtain ⟨j, listed, rows⟩ := List.mem_flatMap.mp member
      obtain ⟨d, active, rfl⟩ := List.mem_map.mp rows
      have node := List.mem_range.mp listed
      dsimp only
      rw [r.capacity_row_value node]
      exact relaxed.capacity j node d active
    · intro row member
      obtain ⟨i, listed, rfl⟩ := List.mem_map.mp member
      have service := List.mem_range.mp listed
      dsimp only
      rw [r.assignment_row_value service]
      exact relaxed.assigned i service
    · exact (bounds_iff_shares v sized _).mpr relaxed.fractional

/-! ## The named program -/

theorem assignment_constraint_holds_iff (r : Relaxation Rat) (service : Nat) (v : Share → Rat) :
    (r.assignmentConstraint service).Holds v ↔
      (r.nodeIndices.map fun j => v ⟨service, j⟩).sum = 1 := by
  unfold NamedConstraint.Holds assignmentConstraint NamedProgram.formValue
  dsimp only
  rw [Quantity.total_eq_sum, List.map_map]
  simp only [Function.comp_def, one_mul]

theorem capacity_constraint_holds_iff (r : Relaxation Rat) (node : Nat) (d : Dimension)
    (v : Share → Rat) :
    (r.capacityConstraint node d).Holds v ↔
      (r.serviceIndices.map fun i => r.requirement i d * v ⟨i, node⟩).sum ≤ r.capacity node d := by
  unfold NamedConstraint.Holds capacityConstraint NamedProgram.formValue
  dsimp only
  rw [Quantity.total_eq_sum, List.map_map]
  rfl

theorem named_admits_iff (v : Share → Rat) :
    r.namedProgram.Admits v ↔ r.Relaxed r.activeDimensions fun i j => v ⟨i, j⟩ := by
  constructor
  · intro admits
    constructor
    · intro i listed
      rw [← r.assignment_constraint_holds_iff]
      apply admits.constraints
      exact List.mem_append_left _ (List.mem_map_of_mem (List.mem_range.mpr listed))
    · intro i service j node
      exact admits.bounds ⟨i, j⟩ ((r.mem_shares_iff ⟨i, j⟩).mpr ⟨service, node⟩)
    · intro j listed d active
      rw [← r.capacity_constraint_holds_iff]
      apply admits.constraints
      apply List.mem_append_right
      exact List.mem_flatMap.mpr ⟨j, List.mem_range.mpr listed, List.mem_map_of_mem active⟩
  · intro relaxed
    constructor
    · intro c member
      rcases List.mem_append.mp member with assignment | capacity
      · obtain ⟨i, listed, rfl⟩ := List.mem_map.mp assignment
        rw [assignment_constraint_holds_iff]
        exact relaxed.assigned i (List.mem_range.mp listed)
      · obtain ⟨j, listed, constraints⟩ := List.mem_flatMap.mp capacity
        obtain ⟨d, active, rfl⟩ := List.mem_map.mp constraints
        rw [capacity_constraint_holds_iff]
        exact relaxed.capacity j (List.mem_range.mp listed) d active
    · intro share member
      obtain ⟨service, node⟩ := (r.mem_shares_iff share).mp member
      exact relaxed.fractional share.service service share.node node

/-! ## Matrices -/

theorem Relaxed.congr {dimensions : List Dimension} {x y : Nat → Nat → Rat}
    (same : ∀ i < r.serviceCount, ∀ j < r.nodeCount, x i j = y i j)
    (relaxed : r.Relaxed dimensions x) : r.Relaxed dimensions y := by
  constructor
  · intro i service
    rw [← relaxed.assigned i service]
    congr 1
    apply List.map_congr_left
    intro j member
    exact (same i service j (List.mem_range.mp member)).symm
  · intro i service j node
    rw [← same i service j node]
    exact relaxed.fractional i service j node
  · intro j node d member
    apply le_trans (le_of_eq _) (relaxed.capacity j node d member)
    congr 1
    apply List.map_congr_left
    intro i listed
    rw [same i (List.mem_range.mp listed) j node]

theorem tabulate_entry (r : Relaxation Rat) (w : Share → Rat) {i j : Nat}
    (service : i < r.serviceCount) (node : j < r.nodeCount) :
    (r.tabulate w).entry i j = w ⟨i, j⟩ := by
  have row : (r.tabulate w).rows.getD i [] = r.nodeIndices.map fun j => w ⟨i, j⟩ := by
    have inside : i < (r.tabulate w).rows.length := by
      simpa [tabulate, serviceIndices] using service
    rw [List.getD_eq_getElem _ _ inside]
    simp only [tabulate, serviceIndices, List.getElem_map, List.getElem_range]
  have inside : j < (r.nodeIndices.map fun j => w ⟨i, j⟩).length := by
    simpa [nodeIndices] using node
  unfold Fractions.entry
  rw [row, List.getD_eq_getElem _ _ inside]
  simp only [nodeIndices, List.getElem_map, List.getElem_range]

theorem reshape_entry (v : List Rat) {i j : Nat} (service : i < r.serviceCount)
    (node : j < r.nodeCount) : (r.reshape v).entry i j = v.getD (i * r.nodeCount + j) 0 :=
  r.tabulate_entry (fun share => v.getD (r.position share) 0) service node

/-! ## Dimensions in which nothing is asked for -/

structure NotNegative (r : Relaxation Rat) : Prop where
  requirements : ∀ i d, 0 ≤ r.requirement i d
  capacities : ∀ j d, 0 ≤ r.capacity j d

theorem requirement_of_inactive (notNegative : r.NotNegative) {d : Dimension}
    (inactive : d ∉ r.activeDimensions) (i : Nat) : r.requirement i d = 0 := by
  apply le_antisymm _ (notNegative.requirements i d)
  apply at_every_position fun need : Resources Rat => need.get d ≤ 0
  · intro need listed
    by_contra positive
    apply inactive
    refine List.mem_filter.mpr ⟨Resources.dimension_listed d, ?_⟩
    exact List.any_eq_true.mpr ⟨need, listed, decide_eq_true (not_le.mp positive)⟩
  · exact le_of_eq (Resources.get_zero d)

theorem relaxed_all_dimensions_iff (notNegative : r.NotNegative) (x : Nat → Nat → Rat) :
    r.Relaxed r.activeDimensions x ↔ r.Relaxed Dimension.all x := by
  constructor
  · intro relaxed
    refine ⟨relaxed.assigned, relaxed.fractional, fun j node d _ => ?_⟩
    by_cases active : d ∈ r.activeDimensions
    · exact relaxed.capacity j node d active
    · have zeros : (r.serviceIndices.map fun i => r.requirement i d * x i j).sum = 0 := by
        apply List.sum_eq_zero
        intro product member
        obtain ⟨i, -, rfl⟩ := List.mem_map.mp member
        rw [requirement_of_inactive notNegative active i, zero_mul]
      rw [zeros]
      exact notNegative.capacities j d
  · intro relaxed
    refine ⟨relaxed.assigned, relaxed.fractional, fun j node d active => ?_⟩
    exact relaxed.capacity j node d (List.mem_of_mem_filter active)

/-! ## Instances of nodes and services -/

/-- The instance holds the data of the nodes and of the services at their positions. -/
structure Describes (r : Relaxation Rat) (nodes : List (Node Rat))
    (services : List (Service Rat)) : Prop where
  nodeCount : r.nodeCount = nodes.length
  serviceCount : r.serviceCount = services.length
  capacity : ∀ (j : Fin nodes.length) d, r.capacity j d = nodes[j].capacity.get d
  requirement : ∀ (i : Fin services.length) d,
    r.requirement i d = services[i].requirements.get d
  cost : ∀ i : Fin services.length, r.cost i = services[i].cost

variable {nodes : List (Node Rat)} {services : List (Service Rat)}

theorem entities_describe (built : ofEntities nodes services = .ok r) :
    r.Describes nodes services := by
  unfold ofEntities at built
  split_ifs at built
  cases built
  constructor
  · exact List.length_map _
  · exact List.length_map _
  · intro j d
    simp [capacity]
  · intro i d
    simp [requirement]
  · intro i
    simp [cost]

/-- What is accepted of every entry holds at every position; there is nothing past the last one. -/
theorem not_negative_of_accepted (capacities : ∀ c ∈ r.capacities, c.isNegative = false)
    (requirements : ∀ need ∈ r.requirements, need.isNegative = false) : r.NotNegative := by
  have notBelow : ∀ (all : List (Resources Rat)), (∀ values ∈ all, values.isNegative = false) →
      ∀ i d, 0 ≤ (all.getD i 0).get d := by
    intro all accepted i d
    apply at_every_position fun values : Resources Rat => 0 ≤ values.get d
    · intro values listed
      exact not_lt.mp ((Resources.not_negative_iff values).mp (accepted values listed) d)
    · exact le_of_eq (Resources.get_zero d).symm
  exact ⟨notBelow r.requirements requirements, notBelow r.capacities capacities⟩

theorem entities_not_negative (built : ofEntities nodes services = .ok r)
    (capacities : ∀ n ∈ nodes, n.capacity.isNegative = false)
    (requirements : ∀ service ∈ services, service.requirements.isNegative = false) :
    r.NotNegative := by
  unfold ofEntities at built
  split_ifs at built
  cases built
  apply not_negative_of_accepted
  · simpa using capacities
  · simpa using requirements

theorem range_sum (count : Nat) (f : Nat → Rat) :
    ((List.range count).map f).sum = ∑ i : Fin count, f i := by
  induction count with
  | zero => simp
  | succ count ih => rw [List.sum_range_succ, ih, Fin.sum_univ_castSucc]; rfl

theorem Describes.assigned_sum (describes : r.Describes nodes services) (x : Nat → Rat) :
    (r.nodeIndices.map x).sum = ∑ j : Fin nodes.length, x j := by
  unfold nodeIndices
  rw [describes.nodeCount, range_sum]

theorem Describes.load_sum (describes : r.Describes nodes services) (x : Nat → Rat)
    (d : Dimension) :
    (r.serviceIndices.map fun i => r.requirement i d * x i).sum =
      ∑ i : Fin services.length, services[i].requirements.get d * x i := by
  unfold serviceIndices
  rw [describes.serviceCount, range_sum]
  simp only [describes.requirement]

theorem relaxed_iff_fractional (describes : r.Describes nodes services) (x : Nat → Nat → Rat) :
    r.Relaxed Dimension.all x ↔ FractionalPlacement nodes services fun i j => x i j := by
  constructor
  · intro relaxed
    have service : ∀ i : Fin services.length, (i : Nat) < r.serviceCount :=
      fun i => describes.serviceCount.symm ▸ i.isLt
    have node : ∀ j : Fin nodes.length, (j : Nat) < r.nodeCount :=
      fun j => describes.nodeCount.symm ▸ j.isLt
    constructor
    · intro i
      rw [← describes.assigned_sum]
      exact relaxed.assigned i (service i)
    · intro i j
      exact relaxed.fractional i (service i) j (node j)
    · intro j d
      rw [← describes.load_sum (x · j), ← describes.capacity]
      exact relaxed.capacity j (node j) d (Resources.dimension_listed d)
  · intro placement
    constructor
    · intro i service
      rw [describes.assigned_sum]
      exact placement.assigned ⟨i, describes.serviceCount ▸ service⟩
    · intro i service j node
      exact placement.fractional ⟨i, describes.serviceCount ▸ service⟩
        ⟨j, describes.nodeCount ▸ node⟩
    · intro j node d _
      have capacity := describes.capacity ⟨j, describes.nodeCount ▸ node⟩ d
      rw [describes.load_sum (x · j), capacity]
      exact placement.capacity ⟨j, describes.nodeCount ▸ node⟩ d

theorem shares_sum (r : Relaxation Rat) (f : Share → Rat) :
    (r.shares.map f).sum = ∑ i : Fin r.serviceCount, (r.nodeIndices.map fun j => f ⟨i, j⟩).sum := by
  unfold shares serviceIndices
  rw [List.map_flatMap, List.flatMap_def, List.sum_flatten, List.map_map, range_sum]
  apply Finset.sum_congr rfl
  intro i _
  rw [Function.comp_apply, List.map_map]
  rfl

theorem Describes.cost_sum (describes : r.Describes nodes services) (x : Nat → Nat → Rat) :
    (r.shares.map fun share => r.cost share.service * x share.service share.node).sum =
      ∑ i : Fin services.length, ∑ j : Fin nodes.length, services[i].cost * x i j := by
  have counts := describes.serviceCount
  rw [shares_sum, ← Fin.sum_congr' _ counts.symm]
  apply Finset.sum_congr rfl
  intro i _
  rw [describes.assigned_sum fun j => r.cost _ * x _ j]
  simp only [Fin.val_cast, describes.cost]

/-! ## Names -/

theorem count_text_injective {count other : Nat} (same : countText count = countText other) :
    count = other := by
  have digits : Nat.toDigits 10 count = Nat.toDigits 10 other := by
    simpa [countText] using congrArg String.toList same
  have values := congrArg (Nat.ofDigitChars 10 · 0) digits
  simpa only [Nat.ofDigitChars_ten_toDigits] using values

theorem assignment_name_injective {i i' : Nat}
    (same : (r.assignmentConstraint i).name = (r.assignmentConstraint i').name) : i = i' := by
  have texts := congrArg String.toList same
  simp only [assignmentConstraint, String.toList_append, List.append_cancel_left_eq] at texts
  exact count_text_injective (String.toList_injective texts)

theorem capacity_name_injective {j j' : Nat} {d d' : Dimension}
    (same : (r.capacityConstraint j d).name = (r.capacityConstraint j' d').name) :
    j = j' ∧ d = d' := by
  have texts := congrArg String.toList same
  simp only [capacityConstraint, String.toList_append] at texts
  -- The names of the dimensions differ in their first letters.
  have dimensions : d = d' := by
    cases d <;> cases d' <;> first | rfl | simp [Dimension.name] at texts
  subst dimensions
  simp only [List.append_assoc, List.append_cancel_left_eq] at texts
  exact ⟨count_text_injective (String.toList_injective texts), rfl⟩

theorem names_apart (i j : Nat) (d : Dimension) :
    (r.assignmentConstraint i).name ≠ (r.capacityConstraint j d).name := by
  intro same
  have texts := congrArg String.toList same
  simp [assignmentConstraint, capacityConstraint] at texts

/-- No constraint takes the name of another one, so that none is lost where they are kept by
name. -/
theorem constraint_names_nodup (r : Relaxation Rat) :
    (r.namedProgram.constraints.map (·.name)).Nodup := by
  have capacities :
      (r.nodeIndices.flatMap fun j => r.activeDimensions.map (r.capacityConstraint j)) =
      (r.nodeIndices ×ˢ r.activeDimensions).map fun place =>
        r.capacityConstraint place.1 place.2 := by
    simp only [SProd.sprod, List.product, List.map_flatMap, List.map_map, Function.comp_def]
  have active : r.activeDimensions.Nodup := List.Nodup.filter _ (by decide)
  unfold namedProgram
  dsimp only
  rw [capacities, List.map_append, List.map_map, List.map_map, List.nodup_append]
  refine ⟨?_, ?_, ?_⟩
  · apply List.Nodup.map _ List.nodup_range
    intro i i' same
    exact assignment_name_injective same
  · apply List.Nodup.map _ (List.nodup_range.product active)
    intro place place' same
    obtain ⟨node, dimension⟩ := capacity_name_injective same
    exact Prod.ext node dimension
  · intro name assignment other capacity
    obtain ⟨i, -, rfl⟩ := List.mem_map.mp assignment
    obtain ⟨place, -, rfl⟩ := List.mem_map.mp capacity
    exact names_apart i place.1 place.2

end Relaxation

/-! ## The three statements -/

/-- What the two programs and the relaxation have to do with a vector and the matrix that it is the
row-major form of. -/
structure SameRelaxation (nodes : List (Node Rat)) (services : List (Service Rat))
    (r : Relaxation Rat) (v : List Rat) (x : Fractions Rat) : Prop where
  row_major : ∀ i < services.length, ∀ j < nodes.length,
    x.entry i j = v.getD (i * nodes.length + j) 0
  matrix_iff_named : r.matrixProgram.Admits v ↔
    r.namedProgram.Admits fun share => x.entry share.service share.node
  named_iff_fractional :
    (r.namedProgram.Admits fun share => x.entry share.service share.node) ↔
      FractionalPlacement nodes services fun i j => x.entry i j
  names : (r.namedProgram.constraints.map (·.name)).Nodup
  matrix_value : r.matrixProgram.value v =
    ∑ i : Fin services.length, ∑ j : Fin nodes.length, services[i].cost * x.entry i j
  named_value : (r.namedProgram.value fun share => x.entry share.service share.node) =
    ∑ i : Fin services.length, ∑ j : Fin nodes.length, services[i].cost * x.entry i j

open Relaxation in
/-- Both programs state the relaxation with all its dimensions, and charge the same cost. -/
theorem programs_state_relaxation (nodes : List (Node Rat)) (services : List (Service Rat))
    (capacities : ∀ n ∈ nodes, n.capacity.isNegative = false)
    (requirements : ∀ service ∈ services, service.requirements.isNegative = false)
    (r : Relaxation Rat) (built : Relaxation.ofEntities nodes services = .ok r) (v : List Rat)
    (sized : v.length = services.length * nodes.length) :
    SameRelaxation nodes services r v (r.reshape v) := by
  have describes := entities_describe built
  have notNegative := entities_not_negative built capacities requirements
  have sized' : v.length = r.serviceCount * r.nodeCount := by
    rw [sized, describes.serviceCount, describes.nodeCount]
  have entries : ∀ i < r.serviceCount, ∀ j < r.nodeCount,
      v.getD (r.position ⟨i, j⟩) 0 = (r.reshape v).entry i j :=
    fun i service j node => (reshape_entry v service node).symm
  have matrix : r.matrixProgram.Admits v ↔
      r.Relaxed r.activeDimensions (r.reshape v).entry := by
    rw [matrix_admits_iff v sized']
    constructor
    · exact Relaxed.congr entries
    · exact Relaxed.congr fun i service j node => (entries i service j node).symm
  have named : (r.namedProgram.Admits fun share =>
      (r.reshape v).entry share.service share.node) ↔
        r.Relaxed r.activeDimensions (r.reshape v).entry := named_admits_iff _
  have fractional : r.Relaxed r.activeDimensions (r.reshape v).entry ↔
      FractionalPlacement nodes services fun i j => (r.reshape v).entry i j := by
    rw [relaxed_all_dimensions_iff notNegative, relaxed_iff_fractional describes]
  constructor
  · intro i service j node
    rw [← describes.serviceCount] at service
    rw [← describes.nodeCount] at node ⊢
    exact reshape_entry v service node
  · exact matrix.trans named.symm
  · exact named.trans fractional
  · exact r.constraint_names_nodup
  · rw [← describes.cost_sum]
    apply (r.cost_row_value v).trans
    congr 1
    apply List.map_congr_left
    intro share member
    obtain ⟨service, node⟩ := (r.mem_shares_iff share).mp member
    rw [entries share.service service share.node node]
  · rw [← describes.cost_sum]
    unfold NamedProgram.value NamedProgram.formValue namedProgram
    rw [Quantity.total_eq_sum, List.map_map]
    rfl

/-- One node has no uplink and no service asks for any, so that the rows leave that dimension
out. -/
def offlineNodes : List (Node Rat) :=
  [Node.fresh "a" ⟨2, 1, 0, 1⟩, Node.fresh "b" ⟨1, 2, 3, 1⟩]

def offlineServices : List (Service Rat) :=
  [⟨"s", 1, 1, 5, 1, 0, 0⟩, ⟨"t", 2, 1, 2, 1, 0, 1⟩]

def offlineRelaxation : Relaxation Rat where
  nodeNames := ["a", "b"]
  capacities := [⟨2, 1, 0, 1⟩, ⟨1, 2, 3, 1⟩]
  serviceNames := ["s", "t"]
  requirements := [⟨1, 1, 0, 0⟩, ⟨2, 1, 0, 1⟩]
  costs := [5, 2]

theorem programs_state_offline_relaxation :
    SameRelaxation offlineNodes offlineServices offlineRelaxation [1 / 2, 1 / 2, 1 / 4, 3 / 4]
      (offlineRelaxation.reshape [1 / 2, 1 / 2, 1 / 4, 3 / 4]) :=
  programs_state_relaxation offlineNodes offlineServices (by decide) (by decide) offlineRelaxation
    rfl [1 / 2, 1 / 2, 1 / 4, 3 / 4] rfl

end EdgePlacement
