import EdgePlacement.Proofs.Binary64.Exactness
import EdgePlacement.Proofs.Capacity
import EdgePlacement.Proofs.Network.Demands

/-!
# Refused reservations on binary64 numbers

When a path is refused, the links taken before the one without room are released by subtracting what
was added to them. Two roundings stand between a counter and what it is then, so a refusal leaves a
counter as it was exactly when they cancel. They do when the first sum was not rounded at all, as on
an unused link.
-/

namespace EdgePlacement

set_option autoImplicit false

open Relation

structure Link.FinitelyUsed (l : Link Float) : Prop extends l.WithinCapacity where
  bounded : l.capacity.isFinite = true

/-- The counter has a plain sum with the bandwidth: adding the two rounds nothing. -/
structure Link.ExactSum (bandwidth : Float) (l : Link Float) : Prop where
  unsigned : l.used ≠ -0.0
  exact : Binary64.value (l.used + bandwidth) =
    Binary64.value l.used + Binary64.value bandwidth

theorem Link.FinitelyUsed.of_bounds {l : Link Float}
    (bounds : 0 ≤ l.used ∧ l.used ≤ l.capacity ∧ l.capacity.isFinite = true) : l.FinitelyUsed := by
  obtain ⟨above, below, bounded⟩ := bounds
  exact ⟨⟨above, below⟩, bounded⟩

theorem Link.FinitelyUsed.is_counter {l : Link Float} (finitely : l.FinitelyUsed)
    (unsigned : l.used ≠ -0.0) : Binary64.IsCounter l.used :=
  ⟨finitely.above, Binary64.is_finite_of_le finitely.above finitely.below finitely.bounded,
    unsigned⟩

theorem Link.restored_of_exact_sum {l : Link Float} (finitely : l.FinitelyUsed) {bandwidth : Float}
    (nonneg : 0 ≤ bandwidth) (finite : bandwidth.isFinite = true) (plain : l.ExactSum bandwidth) :
    l.Restored bandwidth := by
  have counter := finitely.is_counter plain.unsigned
  unfold Link.Restored
  rw [Binary64.sub_of_exact_add counter nonneg finite plain.exact]
  unfold Quantity.positivePart
  rcases Binary64.counter_zero_or_positive counter with unused | positive
  · rw [unused, ite_self]
  · exact if_pos positive

theorem Link.FinitelyUsed.step {l l' : Link Float} (finitely : l.FinitelyUsed)
    (taken : LinkStep (0 ≤ ·) l l') : l'.FinitelyUsed := by
  have same : l'.reset.capacity = l.reset.capacity :=
    congrArg Link.capacity (link_step_keeps_layout taken)
  have capacity : l'.capacity = l.capacity := same
  refine ⟨finitely.toWithinCapacity.step taken, ?_⟩
  rw [capacity]
  exact finitely.bounded

/-! ## Paths -/

/-- A path is refused for a link of it that has no room. The links taken before that one have been
charged and discharged, which leaves no trace exactly if it restores each of them. -/
structure PathRefused (before after : Topology Float) (path : List (Link Float))
    (bandwidth : Float) : Prop where
  full : ∃ l ∈ path, l.capacity < l.used + bandwidth
  nodes : after.nodes = before.nodes
  links : after.links = before.links.map
    (Link.discharged ((Link.takenAlong path bandwidth).map (·.id)) bandwidth)
  unchanged_iff : after = before ↔ ∀ l ∈ Link.takenAlong path bandwidth,
    Quantity.positivePart (l.used + bandwidth - bandwidth) = l.used
  unchanged_of_exact_sums :
    (∀ l ∈ Link.takenAlong path bandwidth, l.ExactSum bandwidth) → after = before

namespace Topology

variable {t : Topology Float}

theorem discharged_path_refused (wellFormed : t.WellFormed) {path : List (Link Float)}
    (stored : ∀ l ∈ path, l ∈ t.links) (finitely : ∀ l ∈ path, l.FinitelyUsed)
    {bandwidth : Float} (nonneg : 0 ≤ bandwidth) (finite : bandwidth.isFinite = true)
    (full : ¬ path.all (Link.hasRoom bandwidth) = true) :
    PathRefused t (t.discharged ((Link.takenAlong path bandwidth).map (·.id)) bandwidth) path
      bandwidth := by
  have onPath : ∀ l ∈ Link.takenAlong path bandwidth, l ∈ path :=
    fun l taken => (List.takeWhile_prefix _).subset taken
  have unchanged : t.discharged ((Link.takenAlong path bandwidth).map (·.id)) bandwidth = t ↔
      ∀ l ∈ Link.takenAlong path bandwidth, l.Restored bandwidth := by
    rw [discharged_same_iff]
    constructor
    · intro restored l taken
      exact restored l (stored l (onPath l taken)) (List.mem_map_of_mem taken)
    · intro restored l member listed
      obtain ⟨k, taken, same⟩ := List.mem_map.mp listed
      rw [wellFormed.link_unique member (stored k (onPath k taken)) same.symm]
      exact restored k taken
  constructor
  · rw [List.all_eq_true] at full
    simp only [Link.has_room_iff, not_forall, not_not] at full
    obtain ⟨l, member, refused⟩ := full
    exact ⟨l, member, refused⟩
  · rfl
  · rfl
  · exact unchanged
  · intro plain
    apply unchanged.mpr
    intro l taken
    exact Link.restored_of_exact_sum (finitely l (onPath l taken)) nonneg finite (plain l taken)

theorem refused_path (wellFormed : t.WellFormed) {path : List (Link Float)}
    (stored : ∀ l ∈ path, l ∈ t.links) (distinct : (path.map (·.id)).Nodup)
    (finitely : ∀ l ∈ path, l.FinitelyUsed) {bandwidth : Float} (nonneg : 0 ≤ bandwidth)
    (finite : bandwidth.isFinite = true) {after : Topology Float}
    (refused : t.reservePath path bandwidth = (after, false)) :
    PathRefused t after path bandwidth := by
  rw [reserve_path_eq wellFormed bandwidth path stored distinct] at refused
  split_ifs at refused with room
  · cases refused
  · cases refused
    exact discharged_path_refused wellFormed stored finitely nonneg finite room

end Topology

/-! ## Demands -/

/-- A demand that fails leaves the counters alone, unless it fails for a path that is refused. -/
inductive DemandFailed (before after : Topology Float) (assignments : Assignments)
    (weight : String) (demand : Demand Float) (reason : String) : Prop where
  | early (other : reason ≠ RoutingFailure.insufficientBandwidth) (unchanged : after = before)
  | refused (insufficient : reason = RoutingFailure.insufficientBandwidth) (a b : String)
      (path : List (Link Float)) (hosts : demand.Between assignments a b)
      (found : before.findPath a b weight = .ok (some path))
      (refusal : PathRefused before after path demand.bandwidth)

namespace Topology

variable {t t' : Topology Float} {assignments : Assignments} {weight : String}

theorem failed_demand (wellFormed : t.WellFormed) (finitely : ∀ l ∈ t.links, l.FinitelyUsed)
    {demand : Demand Float} (nonneg : 0 ≤ demand.bandwidth)
    (finite : demand.bandwidth.isFinite = true) {reason : String}
    (failed : t.routeDemand assignments weight demand = (t', .ok (.failed reason))) :
    DemandFailed t t' assignments weight demand reason := by
  cases route_demand_step wellFormed failed with
  | unplaced => exact .early (by decide) rfl
  | apart => exact .early (by decide) rfl
  | refused a b path hosts found full =>
      obtain ⟨stored, -⟩ := found_path_links wellFormed found
      exact .refused rfl a b path hosts found
        (discharged_path_refused wellFormed stored (fun l onPath => finitely l (stored l onPath))
          nonneg finite full)

theorem link_changes_keep_finitely_used (finitely : ∀ l ∈ t.links, l.FinitelyUsed)
    (changes : ReflTransGen (LinkChange (0 ≤ ·)) t t') : ∀ l ∈ t'.links, l.FinitelyUsed := by
  induction changes with
  | refl => exact finitely
  | tail _ change ih =>
      cases change with
      | named id f steps =>
          intro l member
          obtain ⟨l, stored, rfl⟩ := List.mem_map.mp member
          split_ifs with named
          · obtain ⟨origin, member', -, taken⟩ := steps l stored named
            exact (ih origin member').step taken
          · exact ih l stored

end Topology

/-- What a refused reservation and a failed demand leave of the counters. No counter has changed if
the sums that were taken back had not been rounded; for others, what each of them is now is said by
its two roundings. -/
theorem failed_reservations_undo_exact_sums (t : Topology Float) (wellFormed : t.WellFormed) :
    (∀ (path : List (Link Float)) (bandwidth : Float) (after : Topology Float),
      (∀ l ∈ path, l ∈ t.links) → (path.map (·.id)).Nodup →
      (∀ l ∈ path, 0 ≤ l.used ∧ l.used ≤ l.capacity ∧ l.capacity.isFinite = true) →
      0 ≤ bandwidth → bandwidth.isFinite = true →
      t.reservePath path bandwidth = (after, false) → PathRefused t after path bandwidth) ∧
    ∀ (demands : List (Demand Float)) (assignments : Assignments) (weight : String)
      (after : Topology Float) (routing : Routing Float),
      (∀ l ∈ t.links, 0 ≤ l.used ∧ l.used ≤ l.capacity ∧ l.capacity.isFinite = true) →
      (∀ demand ∈ demands, 0 ≤ demand.bandwidth ∧ demand.bandwidth.isFinite = true) →
      t.routeDemands demands assignments weight = (after, .ok routing) →
      ∀ failure ∈ routing.failures, ∃ i : Nat,
        failure.index = i ∧ demands[i]? = some failure.demand ∧
        DemandFailed (t.afterDemands (demands.take i) assignments weight)
          (t.afterDemands (demands.take (i + 1)) assignments weight)
          assignments weight failure.demand failure.reason := by
  constructor
  · intro path bandwidth after stored distinct within nonneg finite refused
    have finitely := fun l onPath => Link.FinitelyUsed.of_bounds (within l onPath)
    exact Topology.refused_path wellFormed stored distinct finitely nonneg finite refused
  · intro demands assignments weight after routing within bandwidths returned failure failed
    have finitely := fun l member => Link.FinitelyUsed.of_bounds (within l member)
    obtain ⟨outcomes, run, rfl⟩ := Topology.route_from_run returned
    obtain ⟨i, demand, reason, listed, outcome, rfl⟩ :=
      (RouteOutcome.mem_collect_failures_iff 0 demands outcomes failure).mp failed
    refine ⟨i, Int.zero_add _, listed, ?_⟩
    obtain ⟨nonneg, finite⟩ := bandwidths demand (List.mem_of_getElem? listed)
    obtain ⟨outcome', sameOutcome, step⟩ := run.step_at listed
    rw [outcome] at sameOutcome
    cases sameOutcome
    obtain ⟨before, first, -⟩ := run.cut i
    have bandwidthsBefore : ∀ demand ∈ demands.take i, 0 ≤ demand.bandwidth :=
      fun demand member => (bandwidths demand (List.mem_of_mem_take member)).1
    have wellFormedBefore := wellFormed.of_same_layout (first.keeps_layout wellFormed)
    have finitelyBefore := Topology.link_changes_keep_finitely_used finitely
      (t.route_demands_changes (demands.take i) assignments weight bandwidthsBefore)
    rw [← first.after_eq] at wellFormedBefore
    exact Topology.failed_demand wellFormedBefore finitelyBefore nonneg finite step

def narrowEnd : Topology Float where
  nodes := [Node.fresh "A" ⟨1, 1, 1, 1⟩, Node.fresh "B" ⟨1, 1, 1, 1⟩, Node.fresh "C" ⟨1, 1, 1, 1⟩]
  links := [⟨"ab", "A", "B", 10, 1, 0.1⟩, ⟨"bc", "B", "C", 0.5, 1, 0⟩]
  canonical := [("a", "A"), ("b", "B"), ("c", "C")]
  tieTolerance := 1e-9

def narrowEndHosts : Assignments :=
  ⟨[("s", some "A"), ("t", some "B"), ("u", some "C")]⟩

theorem narrow_end_undoes_exact_sums :
    PathRefused narrowEnd (narrowEnd.reservePath narrowEnd.links 0.7).1 narrowEnd.links 0.7 ∧
    ∀ after routing,
      narrowEnd.routeDemands [⟨"s", "t", 0.1⟩, ⟨"s", "u", 0.7⟩] narrowEndHosts "latency" =
        (after, .ok routing) →
      ∀ failure ∈ routing.failures, ∃ i : Nat, failure.index = i ∧
        [(⟨"s", "t", 0.1⟩ : Demand Float), ⟨"s", "u", 0.7⟩][i]? = some failure.demand ∧
        DemandFailed
          (narrowEnd.afterDemands ([⟨"s", "t", 0.1⟩, ⟨"s", "u", 0.7⟩].take i) narrowEndHosts
            "latency")
          (narrowEnd.afterDemands ([⟨"s", "t", 0.1⟩, ⟨"s", "u", 0.7⟩].take (i + 1)) narrowEndHosts
            "latency")
          narrowEndHosts "latency" failure.demand failure.reason := by
  have wellFormed : narrowEnd.WellFormed := ⟨by decide, by decide, by decide, by decide⟩
  obtain ⟨paths, demands⟩ := failed_reservations_undo_exact_sums narrowEnd wellFormed
  constructor
  · apply paths
    · exact fun l member => member
    · decide
    · decide
    · decide
    · decide
    · exact Prod.ext rfl (by decide)
  · intro after routing
    apply demands
    · decide
    · decide

/-- The bandwidth 0.7 on top of 0.1 comes to a rounded sum, and taking it back leaves less than
0.1. -/
theorem refused_path_may_change_counter :
    ¬ ∀ (t : Topology Float) (path : List (Link Float)) (bandwidth : Float),
      t.WellFormed → (∀ l ∈ path, l ∈ t.links) → (path.map (·.id)).Nodup →
      (∀ l ∈ path, 0 ≤ l.used ∧ l.used ≤ l.capacity ∧ l.capacity.isFinite = true) →
      0 ≤ bandwidth → bandwidth.isFinite = true →
      (t.reservePath path bandwidth).2 = false →
      (t.reservePath path bandwidth).1.links = t.links := by
  intro restores
  have wellFormed : narrowEnd.WellFormed := ⟨by decide, by decide, by decide, by decide⟩
  have restored := restores narrowEnd narrowEnd.links 0.7 wellFormed (fun l member => member)
    (by decide) (by decide) (by decide) (by decide) (by decide)
  revert restored
  decide

end EdgePlacement
