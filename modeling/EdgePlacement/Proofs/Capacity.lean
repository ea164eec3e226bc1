import EdgePlacement.Proofs.Binary64.Undefined
import EdgePlacement.Proofs.LawfulCounters
import EdgePlacement.Proofs.Resources
import EdgePlacement.Proofs.Runs

/-!
# Counters stay within capacity

No operation takes the usage of a node or the used bandwidth of a link below zero or above its
capacity. Each step of a node or link keeps its own counters in range, each change of a topology is
made of such steps, and a run is a sequence of changes, however its operations end.
-/

namespace EdgePlacement

open Relation

set_option autoImplicit false

variable {α : Type} [Quantity α]

structure Node.WithinCapacity (n : Node α) : Prop where
  above : ∀ d, 0 ≤ n.usage.get d
  below : ∀ d, n.usage.get d ≤ n.capacity.get d

structure Link.WithinCapacity (l : Link α) : Prop where
  above : 0 ≤ l.used
  below : l.used ≤ l.capacity

structure Topology.WithinCapacity (t : Topology α) : Prop where
  nodes : ∀ n ∈ t.nodes, n.WithinCapacity
  links : ∀ l ∈ t.links, l.WithinCapacity

variable [LawfulCounter α]

/-! ## Nodes -/

namespace Node.WithinCapacity

variable {n n' : Node α}

theorem reserve (within : n.WithinCapacity) {request : Resources α}
    (admitted : request.NotNegative) (fits : n.reserve? request = some n') :
    n'.WithinCapacity := by
  unfold Node.reserve? at fits
  split at fits
  · rename_i room
    cases fits
    have bounds := (Resources.fits_in_iff _ _ _).mp room
    have notBelow := (Resources.not_negative_iff request).mp admitted
    constructor
    · intro d
      have bound := bounds d
      rw [Resources.get_add] at bound ⊢
      exact LawfulCounter.sum_above _ _ _ (within.above d) (notBelow d) bound
    · intro d
      exact LawfulCounter.within_of_fits _ _ (bounds d)
  · cases fits

theorem release (within : n.WithinCapacity) {request : Resources α}
    (admitted : request.NotNegative) : (n.release request).WithinCapacity := by
  have notBelow := (Resources.not_negative_iff request).mp admitted
  have usage : ∀ d, (n.release request).usage.get d =
      Quantity.positivePart (n.usage.get d - request.get d) := by
    intro d
    unfold Node.release
    rw [Resources.get_floor_zero, Resources.get_sub]
  constructor
  · intro d
    rw [usage]
    exact Quantity.positive_part_above _
  · intro d
    rw [usage]
    exact LawfulCounter.trans _ _ _
      (Quantity.positive_part_difference_within _ _ (within.above d) (notBelow d))
      (within.below d)

omit [LawfulCounter α] in
theorem rehosted (within : n.WithinCapacity) (hosted : List String) :
    ({ n with hosted := hosted } : Node α).WithinCapacity :=
  ⟨within.above, within.below⟩

theorem reset (within : n.WithinCapacity) : n.reset.WithinCapacity := by
  constructor
  · intro d
    change 0 ≤ (0 : Resources α).get d
    rw [Resources.get_zero]
    exact LawfulCounter.zero_le_zero
  · intro d
    change (0 : Resources α).get d ≤ n.capacity.get d
    rw [Resources.get_zero]
    exact LawfulCounter.trans _ _ _ (within.above d) (within.below d)

theorem step (within : n.WithinCapacity) (taken : NodeStep Resources.NotNegative n n') :
    n'.WithinCapacity := by
  cases taken with
  | stay => exact within
  | reserve _ request admitted fits => exact within.reserve admitted fits
  | release request admitted => exact within.release admitted
  | deploy _ service admitted fits =>
      rcases deploy_cases fits with ⟨-, rfl⟩ | ⟨-, room, rfl⟩
      · exact within
      · exact (within.reserve admitted (if_pos room)).rehosted _
  | undeploy service admitted =>
      unfold Node.undeploy
      split
      · exact (within.release admitted).rehosted _
      · exact within
  | reset => exact within.reset

end Node.WithinCapacity

/-! ## Links -/

namespace Link.WithinCapacity

variable {l l' : Link α}

theorem reserve (within : l.WithinCapacity) {bandwidth : α} (admitted : 0 ≤ bandwidth)
    (fits : l.reserve? bandwidth = some l') : l'.WithinCapacity := by
  have capacityAbove : 0 ≤ l.capacity := LawfulCounter.trans _ _ _ within.above within.below
  unfold Link.reserve? at fits
  split at fits
  · cases fits
  · rename_i room
    cases fits
    have bound := LawfulCounter.sum_within _ _ _ within.above admitted capacityAbove room
    exact ⟨LawfulCounter.sum_above _ _ _ within.above (LawfulCounter.not_below _ admitted) bound,
      bound⟩

theorem release (within : l.WithinCapacity) {bandwidth : α} (admitted : 0 ≤ bandwidth) :
    (l.release bandwidth).WithinCapacity := by
  constructor
  · exact Quantity.positive_part_above _
  · exact LawfulCounter.trans _ _ _
      (Quantity.positive_part_difference_within _ _ within.above
        (LawfulCounter.not_below _ admitted))
      within.below

theorem reset (within : l.WithinCapacity) : l.reset.WithinCapacity :=
  ⟨LawfulCounter.zero_le_zero, LawfulCounter.trans _ _ _ within.above within.below⟩

theorem step (within : l.WithinCapacity) (taken : LinkStep (0 ≤ ·) l l') :
    l'.WithinCapacity := by
  cases taken with
  | stay => exact within
  | reserve _ bandwidth admitted fits => exact within.reserve admitted fits
  | release bandwidth admitted => exact within.release admitted
  | reset => exact within.reset

end Link.WithinCapacity

/-! ## Topologies -/

namespace Topology.WithinCapacity

variable {t t' : Topology α}

theorem node_change (within : t.WithinCapacity)
    (change : NodeChange Resources.NotNegative t t') : t'.WithinCapacity := by
  cases change with
  | named name f steps =>
      refine ⟨fun n member => ?_, within.links⟩
      obtain ⟨n, stored, rfl⟩ := List.mem_map.mp member
      split_ifs with named
      · obtain ⟨origin, member', -, taken⟩ := steps n stored named
        exact (within.nodes origin member').step taken
      · exact within.nodes n stored
  | undeployed service admitted =>
      refine ⟨fun n member => ?_, within.links⟩
      obtain ⟨n, stored, rfl⟩ := List.mem_map.mp member
      exact (within.nodes n stored).step (.undeploy n service admitted)

theorem link_change (within : t.WithinCapacity) (change : LinkChange (0 ≤ ·) t t') :
    t'.WithinCapacity := by
  cases change with
  | named id f steps =>
      refine ⟨within.nodes, fun l member => ?_⟩
      obtain ⟨l, stored, rfl⟩ := List.mem_map.mp member
      split_ifs with named
      · obtain ⟨origin, member', -, taken⟩ := steps l stored named
        exact (within.links origin member').step taken
      · exact within.links l stored

theorem reset (within : t.WithinCapacity) : t.resetUsage.WithinCapacity := by
  constructor
  · intro n member
    obtain ⟨n, stored, rfl⟩ := List.mem_map.mp member
    exact (within.nodes n stored).reset
  · intro l member
    obtain ⟨l, stored, rfl⟩ := List.mem_map.mp member
    exact (within.links l stored).reset

theorem changes (within : t.WithinCapacity)
    (made : ReflTransGen (Change Resources.NotNegative (0 ≤ ·)) t t') : t'.WithinCapacity := by
  induction made with
  | refl => exact within
  | tail _ change ih =>
      cases change with
      | node change => exact ih.node_change change
      | link change => exact ih.link_change change
      | reset => exact ih.reset

end Topology.WithinCapacity

/-! ## Runs -/

theorem Topology.unused_within_capacity (t : Topology Float)
    (nodeCapacities : ∀ n ∈ t.nodes, ∀ d,
      (n.capacity.get d).isNaN = false ∧ ¬ n.capacity.get d < 0)
    (linkCapacities : ∀ l ∈ t.links, l.capacity.isNaN = false ∧ ¬ l.capacity < 0)
    (unusedNodes : ∀ n ∈ t.nodes, n.usage = 0) (unusedLinks : ∀ l ∈ t.links, l.used = 0) :
    t.WithinCapacity := by
  constructor
  · intro n member
    constructor <;> intro d <;> rw [unusedNodes n member, Resources.get_zero]
    · exact LawfulCounter.zero_le_zero
    · obtain ⟨number, accepted⟩ := nodeCapacities n member d
      exact Binary64.zero_le_of_accepted number accepted
  · intro l member
    obtain ⟨number, accepted⟩ := linkCapacities l member
    constructor <;> rw [unusedLinks l member]
    · exact LawfulCounter.zero_le_zero
    · exact Binary64.zero_le_of_accepted number accepted

/-- Capacity safety of whole runs on binary64 numbers: whatever operations are made on unused nodes
and links, in whatever order and with whatever outcome, every counter ends between zero and its
capacity, without any tolerance. Nothing but counters and hosted services has changed then. -/
theorem counters_within_capacity_after_run [Summation Float] [PathChoice Float]
    (t : Topology Float)
    (operations : List (Operation Float))
    (nodeCapacities : ∀ n ∈ t.nodes, ∀ d,
      (n.capacity.get d).isNaN = false ∧ ¬ n.capacity.get d < 0)
    (linkCapacities : ∀ l ∈ t.links, l.capacity.isNaN = false ∧ ¬ l.capacity < 0)
    (unusedNodes : ∀ n ∈ t.nodes, n.usage = 0) (unusedLinks : ∀ l ∈ t.links, l.used = 0)
    (admitted : ∀ operation ∈ operations,
      operation.Admitted (fun request => request.isNegative = false) (0 ≤ ·)) :
    (∀ n ∈ (Operation.run operations t).nodes, ∀ d,
      0 ≤ n.usage.get d ∧ n.usage.get d ≤ n.capacity.get d) ∧
    (∀ l ∈ (Operation.run operations t).links, 0 ≤ l.used ∧ l.used ≤ l.capacity) ∧
    (t.WellFormed → (Operation.run operations t).resetUsage = t.resetUsage) := by
  have start := t.unused_within_capacity nodeCapacities linkCapacities unusedNodes unusedLinks
  have made := Operation.run_changes operations t admitted
  have within := start.changes made
  refine ⟨fun n member d => ?_, fun l member => ?_, fun wellFormed => ?_⟩
  · exact ⟨(within.nodes n member).above d, (within.nodes n member).below d⟩
  · exact ⟨(within.links l member).above, (within.links l member).below⟩
  · exact Topology.changes_keep_layout wellFormed made

/-- Two nodes and a link of capacity 0.3, which 0.1 and 0.2 together exceed by rounding. -/
def tightPair : Topology Float where
  nodes := [Node.fresh "a" ⟨0.3, 1, 1, 1⟩, Node.fresh "b" ⟨0.3, 1, 1, 1⟩]
  links := [⟨"ab", "a", "b", 0.3, 5, 0⟩]
  canonical := [("a", "a"), ("b", "b")]
  tieTolerance := 1e-9

def tightRun : List (Operation Float) :=
  [.reserve "a" ⟨0.1, 0, 0, 0⟩, .reserve "a" ⟨0.2, 0, 0, 0⟩, .release "a" ⟨0.3, 0, 0, 0⟩,
    .reserveLink "ab" 0.1, .reserveLink "ab" 0.2, .releaseLink "ab" 0.2,
    .solve standardPlanner
      ⟨[⟨"s", 0.3, 0, 0, 0, 0, 0⟩, ⟨"t", 0.3, 1, 0, 0, 0, 0⟩, ⟨"u", 0.1, 0, 0, 0, 0, 0⟩],
        [⟨"s", "t", 0.2⟩]⟩
      ⟨none, .highs, 0.5, .latency, false, false, none⟩ 0,
    .resetUsage]

theorem counters_within_capacity_after_tight_run :
    (∀ n ∈ (Operation.run tightRun tightPair).nodes, ∀ d,
      0 ≤ n.usage.get d ∧ n.usage.get d ≤ n.capacity.get d) ∧
    (∀ l ∈ (Operation.run tightRun tightPair).links, 0 ≤ l.used ∧ l.used ≤ l.capacity) ∧
    (tightPair.WellFormed →
      (Operation.run tightRun tightPair).resetUsage = tightPair.resetUsage) := by
  apply counters_within_capacity_after_run
  · intro n member d
    have listed : n = Node.fresh "a" ⟨0.3, 1, 1, 1⟩ ∨ n = Node.fresh "b" ⟨0.3, 1, 1, 1⟩ := by
      simpa [tightPair] using member
    rcases listed with rfl | rfl <;> cases d <;> decide
  · intro l member
    have listed : l = ⟨"ab", "a", "b", 0.3, 5, 0⟩ := by simpa [tightPair] using member
    subst listed
    decide
  · intro n member
    have listed : n = Node.fresh "a" ⟨0.3, 1, 1, 1⟩ ∨ n = Node.fresh "b" ⟨0.3, 1, 1, 1⟩ := by
      simpa [tightPair] using member
    rcases listed with rfl | rfl <;> rfl
  · intro l member
    have listed : l = ⟨"ab", "a", "b", 0.3, 5, 0⟩ := by simpa [tightPair] using member
    subst listed
    rfl
  · simp only [tightRun, List.forall_mem_cons, Operation.Admitted, List.not_mem_nil,
      false_implies, implies_true]
    decide

end EdgePlacement
