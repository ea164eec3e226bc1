import EdgePlacement.Proofs.Resources
import EdgePlacement.Relaxation.Check

/-!
# What the check of an assignment passes

The check reports whatever it finds beyond a bound. An assignment passes if nothing is found, which
says that everything keeps its bounds only where every comparison holds one way or the other.
-/

namespace EdgePlacement.Relaxation

set_option autoImplicit false

variable {α : Type} [Quantity α] [Summation α]

/-- Nothing that the check compares is found beyond its bound. -/
structure Unviolated (r : Relaxation α) (tolerance : α) (x : Fractions α) : Prop where
  services : x.rows.length = r.serviceCount
  nodes : x.columns = r.nodeCount
  entries : ∀ row ∈ x.rows, ∀ v ∈ row, ¬ v < 0 - tolerance ∧ ¬ 1 + tolerance < v
  rowTotals : ∀ row ∈ x.rows, ¬ tolerance < Quantity.magnitude (Summation.total row - 1)
  loads : ∀ node < r.nodeCount, ∀ d, ¬ r.capacity node d + tolerance < r.loadOn x node d

omit [Quantity α] [Summation α] in
theorem has_shape_iff {x : Fractions α} {rows columns : Nat} :
    x.hasShape rows columns = true ↔ x.rows.length = rows ∧ x.columns = columns := by
  simp [Fractions.hasShape]

variable {r : Relaxation α} {x : Fractions α} {tolerance : α}

omit [Summation α] in
theorem stays_in_unit_iff : leavesUnit x tolerance = false ↔
    ∀ row ∈ x.rows, ∀ v ∈ row, ¬ v < 0 - tolerance ∧ ¬ 1 + tolerance < v := by
  simp [leavesUnit]

theorem no_row_violation_iff (sized : x.rows.length = r.serviceCount) :
    r.rowViolations x tolerance = [] ↔
      ∀ row ∈ x.rows, ¬ tolerance < Quantity.magnitude (Summation.total row - 1) := by
  have checked : ∀ row, row ∈ x.rows ↔ ∃ service, (service, row) ∈ r.serviceNames.zip x.rows := by
    intro row
    have rows : (r.serviceNames.zip x.rows).map Prod.snd = x.rows :=
      List.map_snd_zip (Nat.le_of_eq sized)
    rw [← rows, List.mem_map]
    simp [rows]
  unfold rowViolations
  rw [List.filterMap_eq_nil_iff]
  constructor
  · intro none row member
    obtain ⟨service, paired⟩ := (checked row).mp member
    have passed := none _ paired
    simpa using passed
  · rintro within ⟨service, row⟩ paired
    exact if_neg (within row ((checked row).mpr ⟨service, paired⟩))

theorem no_load_violation_iff : r.loadViolations x tolerance = [] ↔
    ∀ node < r.nodeCount, ∀ d, ¬ r.capacity node d + tolerance < r.loadOn x node d := by
  unfold loadViolations
  rw [List.flatMap_eq_nil_iff]
  simp only [List.filterMap_eq_nil_iff]
  constructor
  · intro none node listed d
    have named : (r.nodeNames[node], node) ∈ r.nodeNames.zipIdx := by
      rw [List.mem_zipIdx_iff_getElem?, List.getElem?_eq_getElem listed]
    have passed := none _ named d (Resources.dimension_listed d)
    simpa using passed
  · rintro within ⟨name, node⟩ named d -
    exact if_neg (within node (List.snd_lt_of_mem_zipIdx named) d)

theorem violations_nil_iff : r.violations x tolerance = [] ↔ r.Unviolated tolerance x := by
  unfold violations
  by_cases shaped : x.hasShape r.serviceCount r.nodeCount = true
  · obtain ⟨services, nodes⟩ := has_shape_iff.mp shaped
    have noFlag : (if leavesUnit x tolerance then [(.outsideUnit : Violation α)] else []) = [] ↔
        leavesUnit x tolerance = false := by
      cases leavesUnit x tolerance <;> simp
    rw [shaped, Bool.not_true, if_neg Bool.false_ne_true, List.append_eq_nil_iff,
      List.append_eq_nil_iff, noFlag, stays_in_unit_iff, no_row_violation_iff services,
      no_load_violation_iff]
    constructor
    · rintro ⟨⟨entries, rowTotals⟩, loads⟩
      exact ⟨services, nodes, entries, rowTotals, loads⟩
    · intro unviolated
      exact ⟨⟨unviolated.entries, unviolated.rowTotals⟩, unviolated.loads⟩
  · rw [Bool.eq_false_iff.mpr shaped]
    constructor
    · nofun
    · intro unviolated
      exact absurd (has_shape_iff.mpr ⟨unviolated.services, unviolated.nodes⟩) shaped

theorem finalize_ok_iff {y : Fractions α} : r.finalize x tolerance = .ok y ↔
    x.map Quantity.clipToUnit = y ∧ r.Unviolated tolerance y := by
  rw [← violations_nil_iff]
  unfold finalize
  dsimp only
  cases found : r.violations (x.map Quantity.clipToUnit) tolerance with
  | nil =>
      rw [Except.ok.injEq]
      exact ⟨fun same => ⟨same, same ▸ found⟩, fun both => both.1⟩
  | cons first rest =>
      constructor
      · nofun
      · rintro ⟨rfl, none⟩
        rw [found] at none
        cases none

theorem finalize_fault {fault : Fault α} (failed : r.finalize x tolerance = .error fault) :
    fault.kind = .solverFailure := by
  unfold finalize at failed
  dsimp only at failed
  split at failed
  · cases failed
  · cases failed
    rfl

theorem finalized_shape {y : Fractions α} (returned : r.finalize x tolerance = .ok y) :
    y.hasShape r.serviceCount r.nodeCount = true := by
  obtain ⟨-, unviolated⟩ := finalize_ok_iff.mp returned
  exact has_shape_iff.mpr ⟨unviolated.services, unviolated.nodes⟩

end EdgePlacement.Relaxation
