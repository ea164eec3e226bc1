import EdgePlacement.Proofs.Capacity

/-!
# Links that lose count

A bandwidth that is no number is not below zero, so a demand may ask for it, and a link grants what
it does not find to exceed its capacity. The count of the link is lost then: it is no number itself,
and the link grants everything until something is released or reset. A node grants only what it
finds to fit, so no request whatever makes it lose count.
-/

namespace EdgePlacement

open Relation

set_option autoImplicit false

/-! ## Words that are no numbers -/

namespace Binary64

theorem floored_of_nan {left : Float} (lost : left.isNaN = true) {right : Float} :
    Quantity.positivePart (left - right) = 0 := by
  apply if_neg
  rw [lt_iff]
  exact fun positive => (is_nan_iff _).mp (sub_is_nan lost right) positive.2.1

theorem le_add_zero_iff {word bound : Float} (above : 0 ≤ bound) :
    word ≤ bound + 0 ↔ word ≤ bound := by
  constructor
  · exact le_of_le_add_zero
  · intro within
    obtain ⟨number, -, below⟩ := (le_iff word bound).mp within
    have sum := is_number_of_zero_le (zero_le_add above LawfulCounter.zero_le_zero)
    have same := (add_zero_same bound.toModel.unpack (unpack_stored bound.toModel)).1
    exact (le_iff word (bound + 0)).mpr ⟨number, sum, below.trans same.ge⟩

end Binary64

/-! ## Single links -/

namespace Link

/-- The counter is in range unless the count is lost. -/
structure Bounded (l : Link Float) : Prop where
  capacity : 0 ≤ l.capacity
  counter : l.used.isNaN = true ∨ l.WithinCapacity

namespace Bounded

variable {l l' : Link Float} {bandwidth : Float}

theorem used_above (bounded : l.Bounded) : l.used.isNaN = true ∨ 0 ≤ l.used :=
  bounded.counter.imp_right fun within => within.above

/-- A link grants what fits, and also whatever leaves it without a count. -/
theorem grants_iff (bounded : l.Bounded) (accepted : ¬ bandwidth < 0) :
    (l.reserve? bandwidth).isSome = true ↔
      l.used.isNaN = true ∨ bandwidth.isNaN = true ∨ l.used + bandwidth ≤ l.capacity := by
  have sum := Binary64.add_is_nan_iff bounded.used_above accepted
  have granted : (l.reserve? bandwidth).isSome = true ↔ ¬ l.capacity < l.used + bandwidth := by
    unfold reserve?
    split_ifs with exceeded <;> simp [exceeded]
  rw [granted, ← or_assoc, ← sum]
  by_cases lost : (l.used + bandwidth).isNaN = true
  · have unseen : ¬ l.capacity < l.used + bandwidth := by
      rw [Binary64.lt_iff]
      exact fun exceeded => (Binary64.is_nan_iff _).mp lost exceeded.2.1
    exact ⟨fun _ => Or.inl lost, fun _ => unseen⟩
  · have number := (Binary64.is_number_iff _).mpr (Bool.eq_false_iff.mpr lost)
    rw [Binary64.not_exceeded_iff number (Binary64.is_number_of_zero_le bounded.capacity),
      or_iff_right lost]

theorem reserved_used (granted : l.reserve? bandwidth = some l') :
    l'.used = l.used + bandwidth ∧ l'.capacity = l.capacity := by
  unfold reserve? at granted
  split_ifs at granted
  cases granted
  exact ⟨rfl, rfl⟩

/-- The count is lost to a bandwidth that is no number, and a lost one is not found again. -/
theorem lost_by_reserving_iff (bounded : l.Bounded) (accepted : ¬ bandwidth < 0)
    (granted : l.reserve? bandwidth = some l') :
    l'.used.isNaN = true ↔ l.used.isNaN = true ∨ bandwidth.isNaN = true := by
  rw [(reserved_used granted).1]
  exact Binary64.add_is_nan_iff bounded.used_above accepted

theorem reserve (bounded : l.Bounded) (accepted : ¬ bandwidth < 0)
    (granted : l.reserve? bandwidth = some l') : l'.Bounded := by
  obtain ⟨used, capacity⟩ := reserved_used granted
  have lost := bounded.lost_by_reserving_iff accepted granted
  have fits := (bounded.grants_iff accepted).mp (by rw [granted]; rfl)
  constructor
  · rw [capacity]
    exact bounded.capacity
  · rw [lost, or_assoc]
    rcases fits with before | asked | fits
    · exact Or.inl before
    · exact Or.inr (Or.inl asked)
    · rcases bounded.counter with before | within
      · exact Or.inl before
      · have above := LawfulCounter.sum_above _ _ _ within.above accepted fits
        rw [← used, ← capacity] at fits
        rw [← used] at above
        exact Or.inr (Or.inr ⟨above, fits⟩)

theorem release (bounded : l.Bounded) (accepted : ¬ bandwidth < 0) :
    (l.release bandwidth).Bounded ∧ (l.release bandwidth).WithinCapacity := by
  have above : 0 ≤ (l.release bandwidth).used := Quantity.positive_part_above _
  have within : (l.release bandwidth).WithinCapacity := by
    refine ⟨above, ?_⟩
    rcases bounded.counter with lost | within
    · have nothing : (l.release bandwidth).used = 0 := Binary64.floored_of_nan lost
      rw [nothing]
      exact bounded.capacity
    · exact LawfulCounter.trans _ _ _
        (Quantity.positive_part_difference_within _ _ within.above accepted) within.below
  exact ⟨⟨bounded.capacity, Or.inr within⟩, within⟩

theorem reset (bounded : l.Bounded) : l.reset.Bounded ∧ l.reset.WithinCapacity := by
  have within : l.reset.WithinCapacity := ⟨LawfulCounter.zero_le_zero, bounded.capacity⟩
  exact ⟨⟨bounded.capacity, Or.inr within⟩, within⟩

theorem step (bounded : l.Bounded) (taken : LinkStep (¬ · < 0) l l') : l'.Bounded := by
  cases taken with
  | stay => exact bounded
  | reserve _ _ accepted granted => exact bounded.reserve accepted granted
  | release _ accepted => exact (bounded.release accepted).1
  | reset => exact bounded.reset.1

end Bounded
end Link

/-! ## Single nodes -/

/-- A node grants what fits in every dimension, and nothing else. -/
theorem Node.grants_iff {n : Node Float} (within : n.WithinCapacity) (request : Resources Float) :
    (n.reserve? request).isSome = true ↔
      ∀ d, n.usage.get d + request.get d ≤ n.capacity.get d := by
  have granted : (n.reserve? request).isSome = true ↔ n.canHost request = true := by
    unfold reserve?
    split_ifs with room <;> simp [room]
  have capacity : ∀ d, 0 ≤ n.capacity.get d := fun d =>
    LawfulCounter.trans _ _ _ (within.above d) (within.below d)
  unfold canHost at granted
  rw [granted, Resources.fits_in_iff]
  apply forall_congr'
  intro d
  rw [Resources.get_add]
  exact Binary64.le_add_zero_iff (capacity d)

/-! ## Runs -/

namespace Topology

variable {α : Type} [Quantity α] {request : Resources α → Prop} {bandwidth : α → Prop}
  {t t' : Topology α}

theorem every_node_kept {holds : Node α → Prop}
    (kept : ∀ n n', holds n → NodeStep request n n' → holds n')
    (changes : ReflTransGen (Change request bandwidth) t t') (every : ∀ n ∈ t.nodes, holds n) :
    ∀ n ∈ t'.nodes, holds n := by
  induction changes with
  | refl => exact every
  | tail _ change ih =>
      intro n member
      cases change with
      | link change =>
          cases change with
          | named => exact ih n member
      | reset =>
          obtain ⟨n, stored, rfl⟩ := List.mem_map.mp member
          exact kept n n.reset (ih n stored) (.reset n)
      | node change =>
          cases change with
          | named name f steps =>
              obtain ⟨n, stored, rfl⟩ := List.mem_map.mp member
              split_ifs with named
              · obtain ⟨origin, stored', -, taken⟩ := steps n stored named
                exact kept origin (f n) (ih origin stored') taken
              · exact ih n stored
          | undeployed service admitted =>
              obtain ⟨n, stored, rfl⟩ := List.mem_map.mp member
              exact kept n _ (ih n stored) (.undeploy n service admitted)

theorem every_link_kept {holds : Link α → Prop}
    (kept : ∀ l l', holds l → LinkStep bandwidth l l' → holds l')
    (changes : ReflTransGen (Change request bandwidth) t t') (every : ∀ l ∈ t.links, holds l) :
    ∀ l ∈ t'.links, holds l := by
  induction changes with
  | refl => exact every
  | tail _ change ih =>
      intro l member
      cases change with
      | node change =>
          cases change with
          | named => exact ih l member
          | undeployed => exact ih l member
      | reset =>
          obtain ⟨l, stored, rfl⟩ := List.mem_map.mp member
          exact kept l l.reset (ih l stored) (.reset l)
      | link change =>
          cases change with
          | named id f steps =>
              obtain ⟨l, stored, rfl⟩ := List.mem_map.mp member
              split_ifs with named
              · obtain ⟨origin, stored', -, taken⟩ := steps l stored named
                exact kept origin (f l) (ih origin stored') taken
              · exact ih l stored

end Topology

theorem Operation.Admitted.narrowed {α : Type} {request request' : Resources α → Prop}
    {first second both : α → Prop} {operation : Operation α}
    (accepted : operation.Admitted request first) (accepted' : operation.Admitted request' second)
    (narrowed : ∀ width, first width → second width → both width) :
    operation.Admitted request both := by
  have every : ∀ demands : List (Demand α), (∀ demand ∈ demands, first demand.bandwidth) →
      (∀ demand ∈ demands, second demand.bandwidth) → ∀ demand ∈ demands, both demand.bandwidth :=
    fun _ each each' demand listed => narrowed _ (each demand listed) (each' demand listed)
  cases operation <;> simp only [Operation.Admitted] at accepted accepted' ⊢
  case reserveLink => exact narrowed _ accepted accepted'
  case releaseLink => exact narrowed _ accepted accepted'
  case reservePath => exact narrowed _ accepted accepted'
  case routeDemands => exact every _ accepted accepted'
  case round => exact ⟨accepted.1, every _ accepted.2 accepted'.2⟩
  case solve => exact ⟨accepted.1, every _ accepted.2 accepted'.2⟩
  all_goals exact accepted

/-- Bandwidths that are no numbers are all that endangers the counters. The usage of a node stays in
range, and the node grants what fits in every dimension and nothing else. The count of a link stays
in range or is lost, and it is lost by granting a bandwidth that is no number, which is always
granted; from then on the link grants everything, until a release or a reset lets it count again.
With numbers for bandwidths no count is lost. -/
theorem count_lost_only_to_undefined_bandwidth [Summation Float] [PathChoice Float]
    (t : Topology Float) (operations : List (Operation Float))
    (nodeCapacities : ∀ n ∈ t.nodes, ∀ d,
      (n.capacity.get d).isNaN = false ∧ ¬ n.capacity.get d < 0)
    (linkCapacities : ∀ l ∈ t.links, l.capacity.isNaN = false ∧ ¬ l.capacity < 0)
    (unusedNodes : ∀ n ∈ t.nodes, n.usage = 0) (unusedLinks : ∀ l ∈ t.links, l.used = 0)
    (accepted : ∀ operation ∈ operations,
      operation.Admitted (fun request => request.isNegative = false) (¬ · < 0)) :
    (∀ n ∈ (Operation.run operations t).nodes,
      (∀ d, (n.usage.get d).isNaN = false ∧
        0 ≤ n.usage.get d ∧ n.usage.get d ≤ n.capacity.get d) ∧
      ∀ request, (n.reserve? request).isSome = true ↔
        ∀ d, n.usage.get d + request.get d ≤ n.capacity.get d) ∧
    (∀ l ∈ (Operation.run operations t).links,
      (l.used.isNaN = true ∨ 0 ≤ l.used ∧ l.used ≤ l.capacity) ∧
      ∀ bandwidth, ¬ bandwidth < 0 →
        ((l.reserve? bandwidth).isSome = true ↔
          l.used.isNaN = true ∨ bandwidth.isNaN = true ∨ l.used + bandwidth ≤ l.capacity) ∧
        (∀ l', l.reserve? bandwidth = some l' →
          (l'.used.isNaN = true ↔ l.used.isNaN = true ∨ bandwidth.isNaN = true)) ∧
        0 ≤ (l.release bandwidth).used ∧ (l.release bandwidth).used ≤ l.capacity) ∧
    ((∀ operation ∈ operations, operation.Admitted (fun _ => True) (·.isNaN = false)) →
      ∀ l ∈ (Operation.run operations t).links, l.used.isNaN = false) := by
  have start := t.unused_within_capacity nodeCapacities linkCapacities unusedNodes unusedLinks
  have made := Operation.run_changes operations t accepted
  have number : ∀ word : Float, 0 ≤ word → word.isNaN = false := fun word above =>
    (Binary64.is_number_iff word).mp (Binary64.is_number_of_zero_le above)
  refine ⟨?_, ?_, ?_⟩
  · intro n member
    have within := Topology.every_node_kept (fun _ _ => Node.WithinCapacity.step) made start.nodes
      n member
    exact ⟨fun d => ⟨number _ (within.above d), within.above d, within.below d⟩,
      Node.grants_iff within⟩
  · intro l member
    have bounded : l.Bounded := by
      apply Topology.every_link_kept (fun _ _ => Link.Bounded.step) made _ l member
      intro l stored
      obtain ⟨above, below⟩ := start.links l stored
      exact ⟨LawfulCounter.trans _ _ _ above below, Or.inr ⟨above, below⟩⟩
    refine ⟨bounded.counter.imp_right fun within => ⟨within.above, within.below⟩, ?_⟩
    intro bandwidth acceptedBandwidth
    have released := (bounded.release acceptedBandwidth).2
    exact ⟨bounded.grants_iff acceptedBandwidth,
      fun _ granted => bounded.lost_by_reserving_iff acceptedBandwidth granted,
      released.above, released.below⟩
  · intro numbers l member
    have admitted : ∀ operation ∈ operations, operation.Admitted Resources.NotNegative (0 ≤ ·) := by
      intro operation listed
      apply (accepted operation listed).narrowed (numbers operation listed)
      exact fun _ accepted number => Binary64.zero_le_of_accepted number accepted
    have within := start.changes (Operation.run_changes operations t admitted)
    exact number _ (within.links l member).above

def linkedPair (capacity used : Float) : Topology Float where
  nodes := [Node.fresh "a" ⟨1, 1, 0, 0⟩, Node.fresh "b" ⟨1, 1, 0, 0⟩]
  links := [⟨"ab", "a", "b", capacity, 1, used⟩]
  canonical := [("a", "a"), ("b", "b")]
  tieTolerance := 0

def pairHosts : Assignments := ⟨[("s", some "a"), ("t", some "b")]⟩

theorem linked_pair_routes {capacity used bandwidth : Float}
    (granted : ¬ capacity < used + bandwidth) :
    (linkedPair capacity used).routeDemand pairHosts "hops" ⟨"s", "t", bandwidth⟩ =
      (linkedPair capacity (used + bandwidth), .ok (.routed ["ab"])) := by
  have path : (linkedPair capacity used).findPath "a" "b" "hops" =
      .ok (some [⟨"ab", "a", "b", capacity, 1, used⟩]) := by
    unfold linkedPair
    generalize (1 : Float) = one
    generalize (0 : Float) = zero
    cbv
  have reserved : (linkedPair capacity used).reservePath [⟨"ab", "a", "b", capacity, 1, used⟩]
      bandwidth = (linkedPair capacity (used + bandwidth), true) := by
    simp [Topology.reservePath, Topology.reserveLinks, Topology.reserveRest, Topology.link?,
      Topology.updateLink, Link.reserve?, linkedPair, granted]
  have source : pairHosts.nodeOf? "s" = some "a" := by decide
  have target : pairHosts.nodeOf? "t" = some "b" := by decide
  simp [Topology.routeDemand, source, target, path, reserved]

def undefinedDemands : List (Demand Float) :=
  [⟨"s", "t", 0 / 0⟩, ⟨"s", "t", 1000⟩]

theorem undefined_demands_routed :
    (linkedPair 10 0).routeDemands undefinedDemands pairHosts "hops" =
      (linkedPair 10 Float.nan, .ok ⟨[(0, ["ab"]), (1, ["ab"])], []⟩) := by
  have lost : (0 : Float) + 0 / 0 = Float.nan := by decide
  have stillLost : Float.nan + 1000 = Float.nan := by decide
  have first : (linkedPair 10 0).routeDemand pairHosts "hops" ⟨"s", "t", 0 / 0⟩ =
      (linkedPair 10 Float.nan, .ok (.routed ["ab"])) :=
    lost ▸ linked_pair_routes (by decide)
  have second : (linkedPair 10 Float.nan).routeDemand pairHosts "hops" ⟨"s", "t", 1000⟩ =
      (linkedPair 10 Float.nan, .ok (.routed ["ab"])) := by
    have routed : (linkedPair 10 Float.nan).routeDemand pairHosts "hops" ⟨"s", "t", 1000⟩ =
        (linkedPair 10 (Float.nan + 1000), .ok (.routed ["ab"])) := linked_pair_routes (by decide)
    rwa [stillLost] at routed
  simp [Topology.routeDemands, Topology.routeFrom, undefinedDemands, first, second,
    Topology.Routing.add, Except.map]

/-- Demands that are accepted make a link lose count and carry more than it can. -/
theorem accepted_bandwidth_may_lose_count :
    (∀ demand ∈ undefinedDemands, demand.checked = .ok demand) ∧
    Link.checked "ab" "a" "b" (10 : Float) 1 = .ok ⟨"ab", "a", "b", 10, 1, 0⟩ ∧
    ((linkedPair 10 0).routeDemands undefinedDemands pairHosts "hops").2 =
      .ok ⟨[(0, ["ab"]), (1, ["ab"])], []⟩ ∧
    ((linkedPair 10 0).routeDemands undefinedDemands pairHosts "hops").1.links.map
      (·.used.isNaN) = [true] := by
  have accepted : ∀ demand ∈ undefinedDemands, ¬ demand.bandwidth < 0 := by decide
  refine ⟨fun demand listed => if_neg (accepted demand listed), if_neg (by decide), ?_, ?_⟩
  · rw [undefined_demands_routed]
  · rw [undefined_demands_routed]
    decide

def undefinedRun : List (Operation Float) :=
  [.routeDemands undefinedDemands pairHosts "hops", .deploy "a" ⟨"s", 1, 1, 0, 0, 0, 0⟩,
    .deploy "b" ⟨"t", 0 / 0, 1, 0, 0, 0, 0⟩]

theorem linked_pair_loses_count :
    (∀ n ∈ (Operation.run undefinedRun (linkedPair 10 0)).nodes, ∀ d,
      (n.usage.get d).isNaN = false) ∧
    (∀ l ∈ (Operation.run undefinedRun (linkedPair 10 0)).links,
      l.used.isNaN = true ∧ (l.reserve? 1000).isSome = true ∧ 0 ≤ (l.release 1000).used) ∧
    ∀ l ∈ (Operation.run (undefinedRun.drop 1) (linkedPair 10 0)).links, l.used.isNaN = false := by
  have nodeCapacities : ∀ n ∈ (linkedPair 10 0).nodes, ∀ d,
      (n.capacity.get d).isNaN = false ∧ ¬ n.capacity.get d < 0 := by
    simp only [linkedPair, List.forall_mem_cons, List.not_mem_nil, false_implies, implies_true,
      and_true]
    constructor <;> intro d <;> cases d <;> decide
  have linkCapacities : ∀ l ∈ (linkedPair 10 0).links,
      l.capacity.isNaN = false ∧ ¬ l.capacity < 0 := by decide
  have unusedNodes : ∀ n ∈ (linkedPair 10 0).nodes, n.usage = 0 := by decide
  have unusedLinks : ∀ l ∈ (linkedPair 10 0).links, l.used = 0 := by decide
  have accepted : ∀ operation ∈ undefinedRun,
      operation.Admitted (fun request => request.isNegative = false) (¬ · < 0) := by
    simp only [undefinedRun, List.forall_mem_cons, Operation.Admitted, List.not_mem_nil,
      false_implies, implies_true]
    decide
  have lost : (Operation.run undefinedRun (linkedPair 10 0)).links =
      (linkedPair 10 Float.nan).links := by
    simp only [Operation.run, undefinedRun, List.foldl_cons, List.foldl_nil, Operation.apply,
      undefined_demands_routed, Topology.updateNode]
  obtain ⟨nodes, links, -⟩ := count_lost_only_to_undefined_bandwidth (linkedPair 10 0) undefinedRun
    nodeCapacities linkCapacities unusedNodes unusedLinks accepted
  obtain ⟨-, -, counted⟩ := count_lost_only_to_undefined_bandwidth (linkedPair 10 0)
    (undefinedRun.drop 1) nodeCapacities linkCapacities unusedNodes unusedLinks
    fun operation listed => accepted operation (List.mem_of_mem_drop listed)
  refine ⟨fun n member d => ((nodes n member).1 d).1, fun l member => ?_, counted ?_⟩
  · have noCount : l.used.isNaN = true := by
      rw [lost] at member
      have same : l = ⟨"ab", "a", "b", 10, 1, Float.nan⟩ := by simpa [linkedPair] using member
      rw [same]
      decide
    obtain ⟨grants, -, released, -⟩ := (links l member).2 1000 (by decide)
    exact ⟨noCount, grants.mpr (Or.inl noCount), released⟩
  · simp [undefinedRun, Operation.Admitted]

end EdgePlacement
