import EdgePlacement.Proofs.Relaxation.Aggregates
import EdgePlacement.Proofs.Relaxation.Violations
import EdgePlacement.Relaxation.Solve

/-!
# Every feasible point will do

A service costs the same wherever it is put, and every service is put somewhere once, so that every
assignment that the instance admits costs what all services cost together. The check passes each of
them as it stands, and both back ends report that cost, whichever of them their solvers choose.
-/

namespace EdgePlacement.Relaxation

set_option autoImplicit false

structure Spans (r : Relaxation Rat) (x : Fractions Rat) : Prop where
  services : x.rows.length = r.serviceCount
  nodes : x.columns = r.nodeCount
  entries : ∀ row ∈ x.rows, row.length = r.nodeCount

variable {r : Relaxation Rat} {x : Fractions Rat} {tolerance : Rat}

/-! ## The matrix by positions -/

namespace Spans

theorem row_at (spans : r.Spans x) {row : List Rat} (member : row ∈ x.rows) :
    ∃ i : Fin r.serviceCount, x.rows.getD i [] = row := by
  obtain ⟨i, inside, rfl⟩ := List.getElem_of_mem member
  exact ⟨⟨i, spans.services ▸ inside⟩, List.getD_eq_getElem _ _ inside⟩

theorem entry_at (spans : r.Spans x) {row : List Rat} (member : row ∈ x.rows) {v : Rat}
    (listed : v ∈ row) :
    ∃ (i : Fin r.serviceCount) (j : Fin r.nodeCount), x.entry i j = v := by
  obtain ⟨i, atRow⟩ := spans.row_at member
  obtain ⟨j, inside, rfl⟩ := List.getElem_of_mem listed
  refine ⟨i, ⟨j, spans.entries row member ▸ inside⟩, ?_⟩
  unfold Fractions.entry
  rw [atRow, List.getD_eq_getElem _ _ inside]

theorem row_total (spans : r.Spans x) {row : List Rat} (member : row ∈ x.rows) :
    ∃ i : Fin r.serviceCount, Quantity.total row = ∑ j : Fin r.nodeCount, x.entry i j := by
  obtain ⟨i, atRow⟩ := spans.row_at member
  refine ⟨i, ?_⟩
  have total := total_by_position row id 0 (spans.entries row member)
  rw [List.map_id] at total
  rw [total]
  unfold Fractions.entry
  rw [atRow]
  rfl

theorem load_sum (spans : r.Spans x) (shaped : r.Shaped) (node : Nat) (d : Dimension) :
    r.loadOn x node d = ∑ i : Fin r.serviceCount, r.requirement i d * x.entry i node := by
  have sized : (x.rows.zip r.requirements).length = r.serviceCount := by
    rw [List.length_zip, spans.services, shaped.requirements, Nat.min_self]
  unfold loadOn
  rw [Summation.load_exact, total_by_position _ _ ([], 0) sized]
  apply Finset.sum_congr rfl
  intro i _
  have inside : (i : Nat) < (x.rows.zip r.requirements).length := sized.symm ▸ i.isLt
  have row : (i : Nat) < x.rows.length := spans.services.symm ▸ i.isLt
  have need : (i : Nat) < r.requirements.length := shaped.requirements.symm ▸ i.isLt
  unfold Fractions.entry requirement
  rw [List.getD_eq_getElem _ _ inside, List.getElem_zip, List.getD_eq_getElem _ _ row,
    List.getD_eq_getElem _ _ need, mul_comm]

end Spans

/-! ## Feasible points -/

namespace Feasible

variable {share : Fin r.serviceCount → Fin r.nodeCount → Rat}

/-- No share of a service exceeds all of them together. -/
theorem le_one (feasible : r.Feasible share) (i : Fin r.serviceCount) (j : Fin r.nodeCount) :
    share i j ≤ 1 := by
  rw [← feasible.assigned i]
  exact Finset.single_le_sum (fun k _ => feasible.nonneg i k) (Finset.mem_univ j)

theorem objective (feasible : r.Feasible share) :
    ∑ i : Fin r.serviceCount, ∑ j, r.cost i * share i j =
      ∑ i : Fin r.serviceCount, r.cost i := by
  apply Finset.sum_congr rfl
  intro i _
  rw [← Finset.mul_sum, feasible.assigned, mul_one]

theorem unviolated (feasible : r.Feasible fun i j => x.entry i j) (spans : r.Spans x)
    (shaped : r.Shaped) (tolerant : 0 ≤ tolerance) : r.Unviolated tolerance x := by
  constructor
  · exact spans.services
  · exact spans.nodes
  · intro row member v listed
    obtain ⟨i, j, rfl⟩ := spans.entry_at member listed
    have above := feasible.nonneg i j
    have below := feasible.le_one i j
    constructor
    · exact not_lt.mpr ((sub_nonpos.mpr tolerant).trans above)
    · exact not_lt.mpr (below.trans (le_add_of_nonneg_right tolerant))
  · intro row member
    obtain ⟨i, total⟩ := spans.row_total member
    have distance : Quantity.magnitude (Summation.total row - 1) = 0 := by
      rw [Summation.total_exact, total, feasible.assigned i, sub_self]
      rfl
    rw [distance]
    exact not_lt.mpr tolerant
  · intro node listed d
    rw [spans.load_sum shaped]
    have within := feasible.capacity ⟨node, listed⟩ d
    exact not_lt.mpr (within.trans (le_add_of_nonneg_right tolerant))

theorem clipped (feasible : r.Feasible fun i j => x.entry i j) (spans : r.Spans x) :
    x.map Quantity.clipToUnit = x := by
  have rows : ∀ row ∈ x.rows, row.map Quantity.clipToUnit = row := by
    intro row member
    apply (List.map_congr_left _).trans row.map_id
    intro v listed
    obtain ⟨i, j, rfl⟩ := spans.entry_at member listed
    have above := not_lt.mpr (feasible.nonneg i j)
    have below := not_lt.mpr (feasible.le_one i j)
    exact (if_neg above).trans (if_neg below)
  have same := (List.map_congr_left rows).trans x.rows.map_id
  exact congrArg (Fractions.mk x.columns) same

theorem finalized (feasible : r.Feasible fun i j => x.entry i j) (spans : r.Spans x)
    (shaped : r.Shaped) (tolerant : 0 ≤ tolerance) : r.finalize x tolerance = .ok x :=
  finalize_ok_iff.mpr ⟨feasible.clipped spans, feasible.unviolated spans shaped tolerant⟩

end Feasible

/-! ## Points of the two programs -/

/-- Both programs read their points as matrices by a table of the shares. -/
theorem tabulate_spans (r : Relaxation Rat) (w : Share → Rat) : r.Spans (r.tabulate w) := by
  constructor
  · simp [tabulate, serviceIndices]
  · rfl
  · intro row member
    obtain ⟨i, -, rfl⟩ := List.mem_map.mp member
    simp [nodeIndices]

theorem Relaxed.feasible (notNegative : r.NotNegative) {w : Share → Rat}
    (relaxed : r.Relaxed r.activeDimensions fun i j => w ⟨i, j⟩) :
    r.Feasible fun i j => (r.tabulate w).entry i j := by
  have everywhere := (relaxed_all_dimensions_iff notNegative _).mp relaxed
  have entries : ∀ (i : Fin r.serviceCount) (j : Fin r.nodeCount),
      (r.tabulate w).entry i j = w ⟨i, j⟩ := fun i j => r.tabulate_entry w i.isLt j.isLt
  simp only [entries]
  constructor
  · intro i j
    exact (everywhere.fractional i i.isLt j j.isLt).1
  · intro i
    rw [← range_sum r.nodeCount fun j => w ⟨i, j⟩]
    exact everywhere.assigned i i.isLt
  · intro j d
    rw [← range_sum r.serviceCount fun i => r.requirement i d * w ⟨i, j⟩]
    exact everywhere.capacity j j.isLt d (Resources.dimension_listed d)

theorem named_value (w : Share → Rat) : r.namedProgram.value w =
    (r.shares.map fun share => r.cost share.service * w share).sum := by
  unfold NamedProgram.value NamedProgram.formValue namedProgram
  rw [Quantity.total_eq_sum, List.map_map]
  rfl

theorem cost_of_shares {w : Share → Rat}
    (feasible : r.Feasible fun i j => (r.tabulate w).entry i j) :
    (r.shares.map fun share => r.cost share.service * w share).sum =
      ∑ i : Fin r.serviceCount, r.cost i := by
  rw [shares_sum, ← feasible.objective]
  apply Finset.sum_congr rfl
  intro i _
  unfold nodeIndices
  rw [range_sum]
  apply Finset.sum_congr rfl
  intro j _
  rw [r.tabulate_entry w i.isLt j.isLt]

theorem solve_of_finalized {solver : Solver Rat} {backend : Backend} {objective : Rat}
    (passes : r.checkAggregate tolerance = .ok ())
    (asked : r.ask solver backend = .solved (x, objective))
    (finalized : r.finalize x tolerance = .ok x) :
    r.solve solver backend tolerance = .ok ⟨x, objective, backend⟩ := by
  unfold solve
  rw [passes, asked]
  simp only [finalized, bind_pure_comp]
  rfl

/-- The check finds nothing in the assignment and leaves it as it is, and no other assignment that
the instance admits costs less. -/
structure PassesAsOptimal (r : Relaxation Rat) (tolerance : Rat) (x : Fractions Rat) : Prop where
  unviolated : r.violations x tolerance = []
  unchanged : r.finalize x tolerance = .ok x
  objective : ∑ i : Fin r.serviceCount, ∑ j : Fin r.nodeCount, r.cost i * x.entry i j =
    ∑ i : Fin r.serviceCount, r.cost i
  optimal : ∀ share, r.Feasible share →
    ∑ i : Fin r.serviceCount, ∑ j : Fin r.nodeCount, r.cost i * x.entry i j ≤
      ∑ i : Fin r.serviceCount, ∑ j : Fin r.nodeCount, r.cost i * share i j

/-- Whatever the instance admits passes unchanged and costs what all services cost. Whichever
admitted points their solvers choose, both back ends return them, and both report that cost. -/
theorem every_feasible_point_passes_as_optimal (r : Relaxation Rat) (shaped : r.Shaped)
    (capacities : ∀ c ∈ r.capacities, c.isNegative = false)
    (requirements : ∀ need ∈ r.requirements, need.isNegative = false) (tolerance : Rat)
    (tolerant : 0 ≤ tolerance) :
    (∀ x, r.Spans x → (r.Feasible fun i j => x.entry i j) → r.PassesAsOptimal tolerance x) ∧
    (∀ solver v, solver.matrix r.matrixProgram = .solved v →
      v.length = r.serviceCount * r.nodeCount → r.matrixProgram.Admits v →
      r.solve solver .highs tolerance =
        .ok ⟨r.reshape v, ∑ i : Fin r.serviceCount, r.cost i, .highs⟩) ∧
    (∀ solver w, solver.named r.namedProgram = .solved w → r.namedProgram.Admits w →
      r.solve solver .pulp tolerance =
        .ok ⟨r.tabulate w, ∑ i : Fin r.serviceCount, r.cost i, .pulp⟩) := by
  have notNegative := not_negative_of_accepted capacities requirements
  have solved : ∀ (solver : Solver Rat) (backend : Backend) (w : Share → Rat),
      (r.Relaxed r.activeDimensions fun i j => w ⟨i, j⟩) →
      r.ask solver backend = .solved (r.tabulate w,
        (r.shares.map fun share => r.cost share.service * w share).sum) →
      r.solve solver backend tolerance =
        .ok ⟨r.tabulate w, ∑ i : Fin r.serviceCount, r.cost i, backend⟩ := by
    intro solver backend w relaxed asked
    have feasible := relaxed.feasible notNegative
    have passes := (shaped.check_passes_iff tolerance).mpr (feasible.none_exceeded tolerant)
    rw [cost_of_shares feasible] at asked
    exact solve_of_finalized passes asked
      (feasible.finalized (r.tabulate_spans w) shaped tolerant)
  refine ⟨fun x spans feasible => ?_, fun solver v answer sized admits => ?_,
    fun solver w answer admits => ?_⟩
  · constructor
    · exact violations_nil_iff.mpr (feasible.unviolated spans shaped tolerant)
    · exact feasible.finalized spans shaped tolerant
    · exact feasible.objective
    · intro share feasible'
      rw [feasible.objective, feasible'.objective]
  · apply solved solver .highs fun share => v.getD (r.position share) 0
    · exact (matrix_admits_iff v sized).mp admits
    · unfold ask
      dsimp only
      rw [answer, ← r.cost_row_value v]
      rfl
  · apply solved solver .pulp w
    · exact (named_admits_iff w).mp admits
    · unfold ask
      dsimp only
      rw [answer, ← named_value w]
      rfl

def rewardingPair : Relaxation Rat where
  nodeNames := ["a", "b"]
  capacities := [⟨2, 3, 0, 0⟩, ⟨2, 3, 0, 0⟩]
  serviceNames := ["s", "t"]
  requirements := [⟨1, 1, 0, 0⟩, ⟨2, 1, 0, 0⟩]
  costs := [-2, 5]

def differingSolver : Solver Rat where
  matrix _ := .solved [1, 0, 0, 1]
  named _ := .solved fun _ => 1 / 2

theorem rewarding_pair_solved_alike :
    rewardingPair.PassesAsOptimal 0 ⟨2, [[1, 0], [0, 1]]⟩ ∧
    rewardingPair.solve differingSolver .highs 0 = .ok ⟨⟨2, [[1, 0], [0, 1]]⟩, 3, .highs⟩ ∧
    rewardingPair.solve differingSolver .pulp 0 =
      .ok ⟨⟨2, [[1 / 2, 1 / 2], [1 / 2, 1 / 2]]⟩, 3, .pulp⟩ := by
  have shaped : rewardingPair.Shaped := ⟨rfl, rfl⟩
  obtain ⟨passes, highs, pulp⟩ := every_feasible_point_passes_as_optimal rewardingPair shaped
    (by decide) (by decide) 0 le_rfl
  have matrix : rewardingPair.matrixProgram.Admits [1, 0, 0, 1] :=
    ⟨by decide +kernel, by decide +kernel, by decide +kernel⟩
  have named : rewardingPair.namedProgram.Admits fun _ => 1 / 2 :=
    (named_admits_iff _).mpr ⟨by decide +kernel, by decide +kernel, by decide +kernel⟩
  have feasible : rewardingPair.Feasible fun i j =>
      Fractions.entry ⟨2, [[1, 0], [0, 1]]⟩ i j := by
    refine ⟨?_, ?_, ?_⟩
    · change ∀ i j : Fin 2, _
      decide +kernel
    · change ∀ i : Fin 2, _
      decide +kernel
    · change ∀ j : Fin 2, _
      intro j d
      revert j
      cases d <;> decide +kernel
  have cost : ∑ i : Fin rewardingPair.serviceCount, rewardingPair.cost i = 3 := by
    change ∑ i : Fin 2, _ = _
    decide +kernel
  have whole : rewardingPair.reshape [1, 0, 0, 1] = ⟨2, [[1, 0], [0, 1]]⟩ := by decide +kernel
  have halves : rewardingPair.tabulate (fun _ => 1 / 2) =
      ⟨2, [[1 / 2, 1 / 2], [1 / 2, 1 / 2]]⟩ := by decide +kernel
  rw [← cost, ← whole, ← halves]
  exact ⟨passes _ ⟨rfl, rfl, by decide⟩ feasible, highs differingSolver _ rfl rfl matrix,
    pulp differingSolver _ rfl named⟩

end EdgePlacement.Relaxation
