import EdgePlacement.Proofs.LawfulCounters
import EdgePlacement.Proofs.Network.Demands

/-!
# Bandwidth is conserved

A path takes each link once. Reserving it charges its links with the bandwidth and no others; when a
link refuses, releasing the links before it takes exactly their charges back, because no counter is
below zero and so the floor at zero is never met. After all demands each link has gained the sum of
the bandwidths of the demands that were routed over it.
-/

namespace EdgePlacement

open Relation

set_option autoImplicit false

/-- The links that an outcome takes up. -/
def RouteOutcome.links : RouteOutcome → List String
  | .routed ids => ids
  | .failed _ => []

/-! ## Exact releases -/

theorem Quantity.positive_part_of_nonneg {v : Rat} (nonneg : 0 ≤ v) : positivePart v = v := by
  rw [positive_part_eq_max]
  exact max_eq_right nonneg

namespace Topology

variable {t : Topology Rat}

theorem discharged_exact (nonneg : ∀ l ∈ t.links, 0 ≤ l.used) (ids : List String)
    (bandwidth : Rat) : t.discharged ids bandwidth = t := by
  rw [discharged_same_iff]
  intro l stored _
  have difference : l.used + bandwidth - bandwidth = l.used := add_sub_cancel_right l.used bandwidth
  unfold Link.Restored
  rw [difference]
  exact Quantity.positive_part_of_nonneg (nonneg l stored)

/-- A demand charges the links of its route, and leaves no trace when it has none. -/
theorem route_demand_charges (wellFormed : t.WellFormed) (nonneg : ∀ l ∈ t.links, 0 ≤ l.used)
    {t' : Topology Rat} {assignments : Assignments} {weight : String} {demand : Demand Rat}
    {outcome : RouteOutcome}
    (routed : t.routeDemand assignments weight demand = (t', .ok outcome)) :
    t' = t.charged outcome.links demand.bandwidth := by
  cases route_demand_step wellFormed routed with
  | unplaced => exact (t.charged_none _).symm
  | apart => exact (t.charged_none _).symm
  | refused =>
      rw [t.discharged_exact nonneg]
      exact (t.charged_none _).symm
  | routed => rfl

end Topology

/-! ## All demands -/

/-- The demand of this position has been given a route over the link. -/
def Routing.uses {α : Type} (routing : Routing α) (index : Int) (link : String) : Bool :=
  routing.routes.any fun route => route.1 == index && route.2.contains link

/-- The bandwidths of the demands routed over the link, the demands counted from the given position
on. -/
def Routing.load (routing : Routing Rat) (demands : List (Demand Rat)) (start : Nat)
    (link : String) : Rat :=
  (((demands.zipIdx start).filter fun entry => routing.uses entry.2 link).map
    (·.1.bandwidth)).sum

theorem Routing.load_unrouted (routing : Routing Rat) (demands : List (Demand Rat)) (start : Nat)
    (link : String) (unrouted : ∀ route ∈ routing.routes, link ∉ route.2) :
    routing.load demands start link = 0 := by
  have unused : ∀ entry ∈ demands.zipIdx start, ¬ routing.uses entry.2 link = true := by
    intro entry _ used
    obtain ⟨route, member, takes⟩ := List.any_eq_true.mp used
    rw [Bool.and_eq_true, List.contains_iff_mem] at takes
    exact unrouted route member takes.2
  unfold Routing.load
  rw [List.filter_eq_nil_iff.mpr unused]
  rfl

namespace Topology

variable {t t' : Topology Rat}

/-- Positions in a routing are those of demands that are still to come. -/
structure RoutedFrom (start : Nat) (routing : Routing Rat) : Prop where
  routes : ∀ route ∈ routing.routes, (start : Int) ≤ route.1
  failures : ∀ failure ∈ routing.failures, (start : Int) ≤ failure.index
  apart : ∀ failure ∈ routing.failures, ∀ route ∈ routing.routes, route.1 ≠ failure.index

theorem charged_nonneg (nonneg : ∀ l ∈ t.links, 0 ≤ l.used) (ids : List String) {bandwidth : Rat}
    (bandwidthNonneg : 0 ≤ bandwidth) : ∀ l ∈ (t.charged ids bandwidth).links, 0 ≤ l.used := by
  intro l member
  obtain ⟨origin, stored, rfl⟩ := List.mem_map.mp member
  unfold Link.charged
  split_ifs
  · exact add_nonneg (nonneg origin stored) bandwidthNonneg
  · exact nonneg origin stored

theorem earlier_position_unused {later : Routing Rat} {start : Nat}
    (fromNext : RoutedFrom (start + 1) later) (link : String) :
    later.uses start link = false := by
  unfold Routing.uses
  rw [List.any_eq_false]
  intro route member
  have position := fromNext.routes route member
  have other : (route.1 == (start : Int)) = false := by
    rw [beq_eq_false_iff_ne]
    omega
  rw [other]
  exact Bool.false_ne_true

theorem uses_add (start index : Int) (demand : Demand Rat) (outcome : RouteOutcome)
    (later : Routing Rat) (link : String) :
    (Routing.add start demand outcome later).uses index link =
      (start == index && outcome.links.contains link || later.uses index link) := by
  cases outcome with
  | routed ids => rfl
  | failed reason =>
      change later.uses index link = (start == index && false || later.uses index link)
      rw [Bool.and_false, Bool.false_or]

theorem load_add (outcome : RouteOutcome) (later : Routing Rat) (demand : Demand Rat)
    (rest : List (Demand Rat)) (start : Nat) (fromNext : RoutedFrom (start + 1) later)
    (link : String) :
    (Routing.add start demand outcome later).load (demand :: rest) start link =
      (if link ∈ outcome.links then demand.bandwidth else 0) +
        later.load rest (start + 1) link := by
  have usesFirst : (Routing.add start demand outcome later).uses start link =
      outcome.links.contains link := by
    rw [uses_add, earlier_position_unused fromNext, beq_self_eq_true, Bool.true_and, Bool.or_false]
  have usesLater : ∀ entry ∈ rest.zipIdx (start + 1),
      (Routing.add start demand outcome later).uses entry.2 link = later.uses entry.2 link := by
    intro entry member
    have position := List.le_snd_of_mem_zipIdx member
    have other : ((start : Int) == (entry.2 : Int)) = false := by
      rw [beq_eq_false_iff_ne]
      omega
    rw [uses_add, other, Bool.false_and, Bool.false_or]
  unfold Routing.load
  rw [List.zipIdx_cons, List.filter_cons, List.filter_congr usesLater, usesFirst]
  by_cases taken : link ∈ outcome.links
  · rw [if_pos taken, if_pos (List.contains_iff_mem.mpr taken), List.map_cons, List.sum_cons]
  · rw [if_neg taken, if_neg (by simpa using taken), zero_add]

theorem RoutedFrom.collected (start : Nat) (demands : List (Demand Rat))
    (outcomes : List RouteOutcome) (paired : outcomes.length = demands.length) :
    RoutedFrom start (RouteOutcome.collect start demands outcomes) := by
  refine ⟨fun route member => ?_, fun failure member => ?_, fun failure failed route member => ?_⟩
  · obtain ⟨i, ids, -, rfl⟩ :=
      (RouteOutcome.mem_collect_routes_iff start demands outcomes paired route).mp member
    dsimp only
    omega
  · obtain ⟨i, _, _, -, -, rfl⟩ :=
      (RouteOutcome.mem_collect_failures_iff start demands outcomes failure).mp member
    dsimp only
    omega
  · obtain ⟨i, _, _, -, outcomeFailed, rfl⟩ :=
      (RouteOutcome.mem_collect_failures_iff start demands outcomes failure).mp failed
    obtain ⟨j, ids, outcomeRouted, rfl⟩ :=
      (RouteOutcome.mem_collect_routes_iff start demands outcomes paired route).mp member
    intro samePosition
    have same : j = i := by
      dsimp only at samePosition
      omega
    subst same
    rw [outcomeRouted] at outcomeFailed
    cases outcomeFailed

/-- What one demand adds to a link and what the demands after it add make up its whole load. -/
theorem run_conserves {assignments : Assignments} {weight : String} {demands : List (Demand Rat)}
    {outcomes : List RouteOutcome} (run : DemandRun assignments weight t demands outcomes t')
    (wellFormed : t.WellFormed) (nonneg : ∀ l ∈ t.links, 0 ≤ l.used)
    (bandwidths : ∀ demand ∈ demands, 0 ≤ demand.bandwidth) (start : Nat) :
    t'.links = t.links.map fun l =>
      { l with used := l.used +
        (RouteOutcome.collect start demands outcomes).load demands start l.id } := by
  induction run generalizing start with
  | done t =>
      refine (List.map_id'' (fun l => ?_) _).symm
      have none : (RouteOutcome.collect start ([] : List (Demand Rat)) []).load [] start l.id = 0 :=
        rfl
      rw [none, add_zero]
  | @next t _ _ demand rest outcome outcomes step later ih =>
      obtain rfl := route_demand_charges wellFormed nonneg step
      have bandwidthNonneg := bandwidths demand List.mem_cons_self
      have bandwidthsRest := fun later member =>
        bandwidths later (List.mem_cons_of_mem demand member)
      have links :=
        ih (wellFormed.of_same_layout (t.charged_keeps_layout outcome.links demand.bandwidth))
          (charged_nonneg nonneg outcome.links bandwidthNonneg) bandwidthsRest (start + 1)
      have fromNext := RoutedFrom.collected (start + 1) rest outcomes later.outcome_count
      rw [links, charged, List.map_map]
      apply List.map_congr_left
      intro l _
      have loads : (RouteOutcome.collect start (demand :: rest) (outcome :: outcomes)).load
          (demand :: rest) start l.id = _ :=
        load_add outcome _ demand rest start fromNext l.id
      rw [Function.comp_apply, Link.charged_id, loads]
      unfold Link.charged
      split_ifs
      · exact congrArg (fun used => { l with used := used }) (add_assoc l.used demand.bandwidth _)
      · rw [zero_add]

end Topology

/-! ## Routing returns -/

section Returns

variable {α : Type} [Quantity α] [PathChoice α]

/-- A search between two nodes fails, in this state or in another one of the same nodes. -/
def Topology.SearchFails (t : Topology α) (weight : String) (fault : Fault α) : Prop :=
  ∃ searched : Topology α, searched.nodeNames = t.nodeNames ∧
    searched.tieTolerance = t.tieTolerance ∧
    ∃ a ∈ searched.nodeNames, ∃ b ∈ searched.nodeNames,
      searched.findPath a b weight = .error fault

theorem Topology.SearchFails.of_same_nodes {t t' : Topology α} {weight : String}
    {fault : Fault α} (fails : t'.SearchFails weight fault) (names : t'.nodeNames = t.nodeNames)
    (tolerance : t'.tieTolerance = t.tieTolerance) : t.SearchFails weight fault := by
  obtain ⟨searched, sameNames, sameTolerance, failure⟩ := fails
  exact ⟨searched, sameNames.trans names, sameTolerance.trans tolerance, failure⟩

/-- A search fails at a tolerance below zero, unless latencies compare with nothing. -/
theorem Topology.SearchFails.cause {t : Topology α} {weight : PathWeight} {fault : Fault α}
    (fails : t.SearchFails weight.name fault) :
    weight = .latency ∧
      (fault = .negativeTieTolerance ∧ t.tieTolerance < 0 ∨ fault = .unorderedPaths) := by
  obtain ⟨searched, -, tolerance, a, nodeA, b, nodeB, failed⟩ := fails
  cases find_path_fault nodeA nodeB failed with
  | intolerant below => exact ⟨rfl, Or.inl ⟨rfl, tolerance ▸ below⟩⟩
  | unordered => exact ⟨rfl, Or.inr rfl⟩

theorem Topology.exact_search_does_not_fail {t : Topology Rat} {weight : PathWeight}
    (tolerable : weight = .hops ∨ 0 ≤ t.tieTolerance) (fault : Fault Rat) :
    ¬ t.SearchFails weight.name fault := by
  rintro ⟨searched, -, tolerance, a, nodeA, b, nodeB, failed⟩
  obtain ⟨path, found⟩ := exact_search_answers nodeA nodeB (tolerance.symm ▸ tolerable)
  rw [failed] at found
  cases found

theorem Topology.route_demand_fault {t t' : Topology α} {assignments : Assignments}
    {weight : String} {demand : Demand α} {fault : Fault α}
    (assigned : ∀ service node, assignments.nodeOf? service = some node → node ∈ t.nodeNames)
    (failed : t.routeDemand assignments weight demand = (t', .error fault)) :
    t.SearchFails weight fault := by
  unfold Topology.routeDemand at failed
  split at failed
  · rename_i source target atSource atTarget
    split at failed
    · rename_i found
      cases failed
      exact ⟨t, rfl, rfl, _, assigned _ source atSource, _, assigned _ target atTarget, found⟩
    · cases failed
    · split at failed <;> cases failed
  · cases failed

theorem Topology.route_from_fault {assignments : Assignments} {weight : String}
    {index : Int} {demands : List (Demand α)} {t t' : Topology α} {fault : Fault α}
    (assigned : ∀ service node, assignments.nodeOf? service = some node → node ∈ t.nodeNames)
    (failed : routeFrom assignments weight index demands t = (t', .error fault)) :
    t.SearchFails weight fault := by
  induction demands generalizing index t with
  | nil => cases failed
  | cons demand rest ih =>
      have kept := route_demand_keeps_nodes t assignments weight demand
      unfold routeFrom at failed
      split at failed
      · rename_i step
        cases failed
        exact route_demand_fault assigned step
      · rename_i between outcome step
        rw [step] at kept
        obtain ⟨nodes, tolerance⟩ := kept
        dsimp only at nodes tolerance failed
        have names : between.nodeNames = t.nodeNames := congrArg (List.map Node.name) nodes
        generalize later : routeFrom assignments weight (index + 1) rest between = result at failed
        obtain ⟨last, answer⟩ := result
        cases answer with
        | ok routing => cases failed
        | error fault' =>
            cases failed
            exact (ih (names ▸ assigned) later).of_same_nodes names tolerance

theorem Topology.route_from_returns (assignments : Assignments) (weight : PathWeight)
    (index : Int) (demands : List (Demand Rat)) (t : Topology Rat)
    (assigned : ∀ service node, assignments.nodeOf? service = some node → node ∈ t.nodeNames)
    (tolerable : weight = .hops ∨ 0 ≤ t.tieTolerance) :
    ∃ routing, (routeFrom assignments weight.name index demands t).2 = .ok routing := by
  generalize answered : routeFrom assignments weight.name index demands t = result
  obtain ⟨t', answer⟩ := result
  cases answer with
  | ok routing => exact ⟨routing, rfl⟩
  | error fault =>
      exact absurd (route_from_fault assigned answered) (exact_search_does_not_fail tolerable fault)

end Returns

/-- Bandwidth is conserved: after routing, each link has gained the bandwidths of exactly those
demands whose route contains it. A demand that failed is on no route, and what is on no route is
untouched. -/
theorem routed_bandwidth_is_conserved (t : Topology Rat) (wellFormed : t.WellFormed)
    (within : ∀ l ∈ t.links, 0 ≤ l.used ∧ l.used ≤ l.capacity) (demands : List (Demand Rat))
    (bandwidths : ∀ demand ∈ demands, 0 ≤ demand.bandwidth) (assignments : Assignments)
    (assigned : ∀ service node, assignments.nodeOf? service = some node → node ∈ t.nodeNames)
    (weight : PathWeight) :
    (weight = .hops ∨ 0 ≤ t.tieTolerance →
      ∃ t' routing, t.routeDemands demands assignments weight.name = (t', .ok routing)) ∧
    ∀ t' routing, t.routeDemands demands assignments weight.name = (t', .ok routing) →
      (t'.links = t.links.map fun l =>
        { l with used := l.used + routing.load demands 0 l.id }) ∧
      (∀ failure ∈ routing.failures, ∀ link, routing.uses failure.index link = false) ∧
      ∀ l ∈ t.links, (∀ route ∈ routing.routes, l.id ∉ route.2) → l ∈ t'.links := by
  constructor
  · intro tolerable
    obtain ⟨routing, returned⟩ :=
      Topology.route_from_returns assignments weight 0 demands t assigned tolerable
    exact ⟨_, routing, Prod.ext rfl returned⟩
  · intro t' routing returned
    have nonneg := fun l member => (within l member).1
    obtain ⟨outcomes, run, collected⟩ := Topology.route_from_run returned
    have links : t'.links = t.links.map fun l =>
        { l with used := l.used + routing.load demands 0 l.id } :=
      collected ▸ Topology.run_conserves run wellFormed nonneg bandwidths 0
    have fromStart : Topology.RoutedFrom 0 routing :=
      collected ▸ Topology.RoutedFrom.collected 0 demands outcomes run.outcome_count
    refine ⟨links, fun failure failed link => ?_, fun l stored unrouted => ?_⟩
    · unfold Routing.uses
      rw [List.any_eq_false]
      intro route member
      have other := fromStart.apart failure failed route member
      simp [other]
    · have untouched :
          ({ l with used := l.used + routing.load demands 0 l.id } : Link Rat) = l := by
        rw [Routing.load_unrouted routing demands 0 l.id unrouted, add_zero]
      rw [links]
      exact List.mem_map.mpr ⟨l, stored, untouched⟩

theorem Assignments.assigned_entry {assignments : Assignments} {service node : String}
    (assigned : assignments.nodeOf? service = some node) :
    (service, some node) ∈ assignments.entries := by
  obtain ⟨entry, found, hosted⟩ := Option.map_eq_some_iff.mp (Option.join_eq_some_iff.mp assigned)
  have named : entry.1 = service := by simpa using List.find?_some found
  have same : entry = (service, some node) := Prod.ext named hosted
  exact same ▸ List.mem_of_find?_eq_some found

def sharedLink : Topology Rat where
  nodes := [Node.fresh "a" ⟨1, 1, 1, 1⟩, Node.fresh "b" ⟨1, 1, 1, 1⟩]
  links := [⟨"ab", "a", "b", 5, 1, 1⟩]
  canonical := [("a", "a"), ("b", "b")]
  tieTolerance := 0

def sharingDemands : List (Demand Rat) :=
  [⟨"s", "t", 2⟩, ⟨"t", "s", 3⟩, ⟨"s", "unknown", 1⟩, ⟨"s", "t", 2⟩]

def sharingHosts : Assignments :=
  ⟨[("s", some "a"), ("t", some "b")]⟩

theorem shared_link_bandwidth_is_conserved :
    (PathWeight.latency = .hops ∨ 0 ≤ sharedLink.tieTolerance →
      ∃ t' routing, sharedLink.routeDemands sharingDemands sharingHosts PathWeight.latency.name =
        (t', .ok routing)) ∧
    ∀ t' routing, sharedLink.routeDemands sharingDemands sharingHosts PathWeight.latency.name =
        (t', .ok routing) →
      (t'.links = sharedLink.links.map fun l =>
        { l with used := l.used + routing.load sharingDemands 0 l.id }) ∧
      (∀ failure ∈ routing.failures, ∀ link, routing.uses failure.index link = false) ∧
      ∀ l ∈ sharedLink.links, (∀ route ∈ routing.routes, l.id ∉ route.2) → l ∈ t'.links := by
  have wellFormed : sharedLink.WellFormed :=
    ⟨by decide, by decide, by decide, by decide⟩
  have assigned : ∀ service node, sharingHosts.nodeOf? service = some node →
      node ∈ sharedLink.nodeNames := by
    intro service node hosted
    have entry := Assignments.assigned_entry hosted
    simp only [sharingHosts, List.mem_cons, Prod.mk.injEq, Option.some.injEq, List.not_mem_nil,
      or_false] at entry
    rcases entry with ⟨-, rfl⟩ | ⟨-, rfl⟩ <;> decide
  exact routed_bandwidth_is_conserved sharedLink wellFormed (by decide) sharingDemands (by decide)
    sharingHosts assigned .latency

end EdgePlacement
