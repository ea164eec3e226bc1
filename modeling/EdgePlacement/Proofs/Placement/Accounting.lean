import EdgePlacement.Proofs.Paths.CounterIndependence
import EdgePlacement.Proofs.Paths.Reachability
import EdgePlacement.Proofs.Placement.Turns

/-!
# The account of a rounding

A placement has something to say about every service and about every demand: a host or a failure for
the one, a route or a failure for the other. What a demand comes to is settled when its turn comes,
by the hosts of its services, by the links that join them, and by the counters that the demands
before it have left.
-/

namespace EdgePlacement

set_option autoImplicit false

variable {α : Type}

/-- A service that is not listed, or that was not placed. -/
def Assignments.Unplaced (assignments : Assignments) (service : String) : Prop :=
  assignments.get? service = none ∨ assignments.get? service = some none

theorem Assignments.unplaced_iff (assignments : Assignments) (service : String) :
    assignments.Unplaced service ↔ assignments.nodeOf? service = none := by
  unfold Assignments.Unplaced Assignments.nodeOf?
  rcases assignments.get? service with _ | _ | node <;> simp

theorem Demand.Between.unique {demand : Demand α} {assignments : Assignments} {a b a' b' : String}
    (hosts : demand.Between assignments a b) (hosts' : demand.Between assignments a' b') :
    a = a' ∧ b = b' :=
  ⟨Option.some.inj (hosts.source.symm.trans hosts'.source),
    Option.some.inj (hosts.target.symm.trans hosts'.target)⟩

theorem Assignments.entries_eq {assignments : Assignments}
    (distinct : (assignments.entries.map (·.1)).Nodup) :
    assignments.entries =
      (assignments.entries.map (·.1)).map fun service =>
        (service, assignments.nodeOf? service) := by
  rw [List.map_map]
  conv_lhs => rw [← List.map_id assignments.entries]
  apply List.map_congr_left
  intro entry member
  have found := (OrderedMap.get_eq_some_iff distinct entry.1 entry.2).mpr member
  have host : assignments.nodeOf? entry.1 = entry.2 := congrArg Option.join found
  exact Prod.ext rfl host.symm

theorem Placement.failures_of_parts {services : List (Service α)}
    {assignments : List (String × Option String)} (routing : Routing α)
    (covered : assignments.map (·.1) = services.map (·.name))
    (distinct : (services.map (·.name)).Nodup) :
    (Placement.ofParts assignments routing).placementFailures = services.filterMap fun service =>
      if ((Placement.ofParts assignments routing).nodeOf? service.name).isNone then
        some ⟨service.name, PlacementFailure.noCapacity⟩
      else none := by
  have keys : ((⟨assignments⟩ : Assignments).entries.map (·.1)).Nodup := covered.symm ▸ distinct
  have entries := Assignments.entries_eq keys
  apply (congrArg (List.filterMap _) entries).trans
  rw [covered, List.map_map, List.filterMap_map]
  rfl

variable [Quantity α] [PathChoice α]

/-! ## The four outcomes of a demand -/

omit [PathChoice α] in
def RouteOutcome.ofSearch (bandwidth : α) : Option (List (Link α)) → RouteOutcome
  | none => .failed RoutingFailure.noPath
  | some path =>
    if path.all (Link.hasRoom bandwidth) then .routed (path.map (·.id))
    else .failed RoutingFailure.insufficientBandwidth

namespace DemandStep

variable {t t' : Topology α} {assignments : Assignments} {weight : String} {demand : Demand α}
  {outcome : RouteOutcome}

theorem unplaced_iff (step : DemandStep t assignments weight demand t' outcome) :
    outcome = .failed RoutingFailure.endpointUnplaced ↔
      assignments.Unplaced demand.source ∨ assignments.Unplaced demand.target := by
  rw [Assignments.unplaced_iff, Assignments.unplaced_iff]
  cases step with
  | unplaced missing => exact iff_of_true rfl missing
  | apart a b hosts => exact iff_of_false (by decide) (by simp [hosts.source, hosts.target])
  | refused a b path hosts => exact iff_of_false (by decide) (by simp [hosts.source, hosts.target])
  | routed a b path hosts => exact iff_of_false nofun (by simp [hosts.source, hosts.target])

theorem outcome_of_search (step : DemandStep t assignments weight demand t' outcome)
    {a b : String} (hosts : demand.Between assignments a b) {path : Option (List (Link α))}
    (found : t.findPath a b weight = .ok path) :
    outcome = RouteOutcome.ofSearch demand.bandwidth path := by
  cases step with
  | unplaced missing => simp [hosts.source, hosts.target] at missing
  | apart a' b' hosts' found' =>
      obtain ⟨rfl, rfl⟩ := hosts.unique hosts'
      cases found.symm.trans found'
      rfl
  | refused a' b' path hosts' found' full =>
      obtain ⟨rfl, rfl⟩ := hosts.unique hosts'
      cases found.symm.trans found'
      exact (if_neg full).symm
  | routed a' b' path hosts' found' room =>
      obtain ⟨rfl, rfl⟩ := hosts.unique hosts'
      cases found.symm.trans found'
      exact (if_pos room).symm

theorem no_path_iff (step : DemandStep t assignments weight demand t' outcome) :
    outcome = .failed RoutingFailure.noPath ↔
      ∃ a b, demand.Between assignments a b ∧ t.findPath a b weight = .ok none := by
  constructor
  · intro failed
    cases step with
    | unplaced => exact absurd failed (by decide)
    | apart a b hosts found => exact ⟨a, b, hosts, found⟩
    | refused => exact absurd failed (by decide)
    | routed => cases failed
  · rintro ⟨a, b, hosts, found⟩
    exact step.outcome_of_search hosts found

theorem insufficient_iff (step : DemandStep t assignments weight demand t' outcome) :
    outcome = .failed RoutingFailure.insufficientBandwidth ↔
      ∃ a b path, demand.Between assignments a b ∧ t.findPath a b weight = .ok (some path) ∧
        ∃ l ∈ path, l.capacity < l.used + demand.bandwidth := by
  have full : ∀ path : List (Link α), ¬ path.all (Link.hasRoom demand.bandwidth) = true ↔
      ∃ l ∈ path, l.capacity < l.used + demand.bandwidth := by
    intro path
    simp [Link.has_room_iff]
  constructor
  · intro failed
    cases step with
    | unplaced => exact absurd failed (by decide)
    | apart => exact absurd failed (by decide)
    | refused a b path hosts found refused =>
      exact ⟨a, b, path, hosts, found, (full path).mp refused⟩
    | routed => cases failed
  · rintro ⟨a, b, path, hosts, found, refused⟩
    rw [step.outcome_of_search hosts found]
    exact if_neg ((full path).mpr refused)

theorem routed_iff (step : DemandStep t assignments weight demand t' outcome)
    (ids : List String) :
    outcome = .routed ids ↔
      ∃ a b path, demand.Between assignments a b ∧ t.findPath a b weight = .ok (some path) ∧
        (∀ l ∈ path, ¬ l.capacity < l.used + demand.bandwidth) ∧ ids = path.map (·.id) := by
  have free : ∀ path : List (Link α), path.all (Link.hasRoom demand.bandwidth) = true ↔
      ∀ l ∈ path, ¬ l.capacity < l.used + demand.bandwidth := by
    intro path
    simp [Link.has_room_iff]
  constructor
  · rintro rfl
    cases step with
    | routed a b path hosts found room => exact ⟨a, b, path, hosts, found, (free path).mp room, rfl⟩
  · rintro ⟨a, b, path, hosts, found, room, rfl⟩
    rw [step.outcome_of_search hosts found]
    exact if_pos ((free path).mpr room)

theorem search_of_hosts (step : DemandStep t assignments weight demand t' outcome) {a b : String}
    (hosts : demand.Between assignments a b) : ∃ path, t.findPath a b weight = .ok path := by
  cases step with
  | unplaced missing => simp [hosts.source, hosts.target] at missing
  | apart a' b' hosts' found =>
      obtain ⟨rfl, rfl⟩ := hosts.unique hosts'
      exact ⟨_, found⟩
  | refused a' b' path hosts' found =>
      obtain ⟨rfl, rfl⟩ := hosts.unique hosts'
      exact ⟨_, found⟩
  | routed a' b' path hosts' found =>
      obtain ⟨rfl, rfl⟩ := hosts.unique hosts'
      exact ⟨_, found⟩

theorem failure_reason {reason : String}
    (step : DemandStep t assignments weight demand t' (.failed reason)) :
    reason = RoutingFailure.endpointUnplaced ∨ reason = RoutingFailure.noPath ∨
      reason = RoutingFailure.insufficientBandwidth := by
  cases step with
  | unplaced => exact Or.inl rfl
  | apart => exact Or.inr (Or.inl rfl)
  | refused => exact Or.inr (Or.inr rfl)

end DemandStep

/-! ## The account -/

/-- What a placement says about the demand of position `i`, when `before` is the topology as the
demands before it have left it. -/
structure DemandAccount (t before : Topology α) (placement : Placement α) (weight : String)
    (i : Nat) (demand : Demand α) : Prop where
  once : (∃ ids, ((i : Int), ids) ∈ placement.routes.entries) ↔
    ¬ ∃ failure ∈ placement.routingFailures, failure.index = i
  unplaced_iff : ⟨i, demand, RoutingFailure.endpointUnplaced⟩ ∈ placement.routingFailures ↔
    placement.assignments.Unplaced demand.source ∨ placement.assignments.Unplaced demand.target
  no_path_iff : ⟨i, demand, RoutingFailure.noPath⟩ ∈ placement.routingFailures ↔
    ∃ a b, demand.Between placement.assignments a b ∧ ¬ t.Connected a b
  insufficient_iff :
    ⟨i, demand, RoutingFailure.insufficientBandwidth⟩ ∈ placement.routingFailures ↔
      ∃ a b path, demand.Between placement.assignments a b ∧
        before.findPath a b weight = .ok (some path) ∧
        ∃ l ∈ path, l.capacity < l.used + demand.bandwidth
  routed_iff : ∀ ids, ((i : Int), ids) ∈ placement.routes.entries ↔
    ∃ a b path, demand.Between placement.assignments a b ∧
      before.findPath a b weight = .ok (some path) ∧
      (∀ l ∈ path, ¬ l.capacity < l.used + demand.bandwidth) ∧ ids = path.map (·.id)
  route : ∀ ids, ((i : Int), ids) ∈ placement.routes.entries →
    ∃ a b names path, demand.Between placement.assignments a b ∧
      t.findPath a b weight = .ok (some path) ∧ ids = path.map (·.id) ∧
      Trail t.Joins a b names path ∧ names.Nodup ∧ (ids = [] ↔ a = b)

/-- What a placement says about all services and all demands of an input, when `t` is the topology
before and `t'` the topology after the rounding. -/
structure RoundingAccount (input : RoundingInput α) (t t' : Topology α) (placement : Placement α) :
    Prop where
  services : placement.assignments.entries.map (·.1) = input.services.map (·.name)
  unplaced : placement.placementFailures = input.services.filterMap fun service =>
    if (placement.nodeOf? service.name).isNone then
      some ⟨service.name, PlacementFailure.noCapacity⟩
    else none
  routes_ascend : placement.routes.entries.Pairwise (·.1 < ·.1)
  routes_listed : ∀ route ∈ placement.routes.entries, ∃ i : Nat,
    route.1 = i ∧ i < input.demands.length
  failures_ascend : placement.routingFailures.Pairwise (·.index < ·.index)
  failures_listed : ∀ failure ∈ placement.routingFailures, ∃ i : Nat,
    failure.index = i ∧ input.demands[i]? = some failure.demand ∧
    (failure.reason = RoutingFailure.endpointUnplaced ∨ failure.reason = RoutingFailure.noPath ∨
      failure.reason = RoutingFailure.insufficientBandwidth)
  demands : ∀ i demand, input.demands[i]? = some demand →
    DemandAccount t
      (({ t with nodes := t'.nodes } : Topology α).afterDemands (input.demands.take i)
        placement.assignments input.weight)
      placement input.weight i demand

/-- A path that is found in one state of the counters is a route of the layout. -/
theorem Topology.route_of_found_path {t before : Topology α} (wellFormed : t.WellFormed)
    (same : before.resetUsage = t.resetUsage) {a b weight : String} {path : List (Link α)}
    (found : before.findPath a b weight = .ok (some path)) :
    ∃ names links, t.findPath a b weight = .ok (some links) ∧
      path.map (·.id) = links.map (·.id) ∧ Trail t.Joins a b names links ∧ names.Nodup ∧
      (links.map (·.id) = [] ↔ a = b) := by
  obtain ⟨answer, found', sameLinks⟩ := find_path_of_same_layout same.symm found
  obtain ⟨links, rfl, resets⟩ := Option.map_eq_some_iff.mp sameLinks
  obtain ⟨names, trail, simple⟩ := found_path_is_simple_trail wellFormed found'
  refine ⟨names, links, found', ?_, trail_joins trail, simple, ?_⟩
  · have ids := congrArg (List.map Link.id) resets
    rw [List.map_map, List.map_map] at ids
    exact ids.symm
  · rw [List.map_eq_nil_iff]
    exact trail.no_links_iff simple

/-- The account of a demand is read off its step. What does not depend on counters is said of a
topology of the same layout, as the one before the placing is. -/
theorem DemandStep.account {t before after : Topology α} (wellFormed : t.WellFormed)
    (same : before.resetUsage = t.resetUsage) {placement : Placement α} {weight : String}
    {i : Nat} {demand : Demand α} {outcome : RouteOutcome}
    (step : DemandStep before placement.assignments weight demand after outcome)
    (routed : ∀ ids, ((i : Int), ids) ∈ placement.routes.entries ↔ outcome = .routed ids)
    (failed : ∀ reason, ⟨i, demand, reason⟩ ∈ placement.routingFailures ↔
      outcome = .failed reason)
    (reported : (∃ failure ∈ placement.routingFailures, failure.index = i) ↔
      ∃ reason, outcome = .failed reason) :
    DemandAccount t before placement weight i demand := by
  have wellFormedBefore := wellFormed.of_same_layout same
  constructor
  · rw [reported]
    simp only [routed]
    cases outcome <;> simp
  · rw [failed]
    exact step.unplaced_iff
  · rw [failed, step.no_path_iff]
    constructor
    · rintro ⟨a, b, hosts, found⟩
      refine ⟨a, b, hosts, fun connected => ?_⟩
      have present := (Topology.found_path_iff_connected wellFormedBefore found).mpr
        (connected.of_same_layout same)
      cases present
    · rintro ⟨a, b, hosts, apart⟩
      obtain ⟨path, found⟩ := step.search_of_hosts hosts
      cases path with
      | none => exact ⟨a, b, hosts, found⟩
      | some links =>
          have connected := (Topology.found_path_iff_connected wellFormedBefore found).mp rfl
          exact absurd (connected.of_same_layout same.symm) apart
  · rw [failed]
    exact step.insufficient_iff
  · intro ids
    rw [routed]
    exact step.routed_iff ids
  · intro ids member
    obtain ⟨a, b, path, hosts, found, -, rfl⟩ := (step.routed_iff ids).mp ((routed ids).mp member)
    obtain ⟨names, links, found', sameIds, trail, simple, noLinks⟩ :=
      Topology.route_of_found_path wellFormed same found
    rw [sameIds]
    exact ⟨a, b, names, links, hosts, found', rfl, trail, simple, noLinks⟩

/-! ## Roundings -/

variable [Summation α] {σ δ : Type}

/-- Every service and every demand of a rounding that returns is accounted for, with the right
reason for each failure and a simple route for each demand that is routed. -/
theorem rounding_accounts_for_everything (plan : RoundingPlan α σ δ) (input : RoundingInput α)
    (s s' : RoundingState α σ) (placement : Placement α) (wellFormed : s.topology.WellFormed)
    (returned : roundFractions plan input s = (s', .ok placement)) :
    RoundingAccount input s.topology s'.topology placement := by
  obtain ⟨accepted, placed, assignments, routing, placing, routed, rfl⟩ := round_returned returned
  obtain ⟨covered, once⟩ := assigned_once accepted placing
  obtain ⟨outcomes, run, rfl⟩ := Topology.route_from_run routed
  obtain ⟨layout, keepsRest⟩ := place_all_keeps_rest plan wellFormed placing
  have start : placed.topology = { s.topology with nodes := s'.topology.nodes } := by
    rw [Topology.routed_keeps_nodes routed]
    exact keepsRest
  have layoutAt : ∀ i, (placed.topology.afterDemands (input.demands.take i) ⟨assignments⟩
      input.weight).resetUsage = s.topology.resetUsage := by
    intro i
    obtain ⟨before, first, -⟩ := run.cut i
    rw [first.after_eq, first.keeps_layout (wellFormed.of_same_layout layout), layout]
  have wellFormedAt := fun i => wellFormed.of_same_layout (layoutAt i)
  constructor
  · exact covered
  · exact Placement.failures_of_parts _ covered (covered ▸ once)
  · exact RouteOutcome.collect_routes_ascend 0 input.demands outcomes run.outcome_count
  · intro route member
    obtain ⟨i, ids, outcome, rfl⟩ :=
      (RouteOutcome.mem_collect_routes_iff 0 input.demands outcomes run.outcome_count route).mp
        member
    have inside := (List.getElem?_eq_some_iff.mp outcome).1
    exact ⟨i, Int.zero_add _, run.outcome_count ▸ inside⟩
  · exact RouteOutcome.collect_failures_ascend 0 input.demands outcomes
  · intro failure member
    obtain ⟨i, demand, reason, listed, outcome, rfl⟩ :=
      (RouteOutcome.mem_collect_failures_iff 0 input.demands outcomes failure).mp member
    obtain ⟨outcome', sameOutcome, step⟩ := run.step_at listed
    rw [outcome] at sameOutcome
    cases sameOutcome
    refine ⟨i, Int.zero_add _, listed, ?_⟩
    exact (Topology.route_demand_step (wellFormedAt i) step).failure_reason
  · intro i demand listed
    rw [← start]
    obtain ⟨outcome, found, step⟩ := run.step_at listed
    apply (Topology.route_demand_step (wellFormedAt i) step).account wellFormed (layoutAt i)
    · intro ids
      apply (RouteOutcome.route_collected_iff run.outcome_count i ids).trans
      rw [found, Option.some.injEq]
    · intro reason
      apply (RouteOutcome.failure_collected_iff listed reason).trans
      rw [found, Option.some.injEq]
    · apply (RouteOutcome.position_failed_iff listed).trans
      simp only [found, Option.some.injEq]

def partlyJoined : Topology Rat where
  nodes := [Node.fresh "a" ⟨1, 1, 1, 1⟩, Node.fresh "b" ⟨1, 1, 1, 1⟩, Node.fresh "c" ⟨1, 1, 1, 1⟩]
  links := [⟨"ab", "a", "b", 2, 1, 0⟩]
  canonical := [("a", "a"), ("b", "b"), ("c", "c")]
  tieTolerance := 0

def allOutcomes : RoundingInput Rat where
  fractions := ⟨3, [[1, 0, 0], [0, 1, 0], [0, 0, 1], [0, 0, 1]]⟩
  services := [⟨"s", 1, 1, 0, 0, 0, 0⟩, ⟨"t", 1, 1, 0, 0, 0, 0⟩, ⟨"u", 1, 1, 0, 0, 0, 0⟩,
    ⟨"v", 1, 1, 0, 0, 0, 0⟩]
  demands := [⟨"s", "t", 1⟩, ⟨"t", "s", 2⟩, ⟨"s", "u", 1⟩, ⟨"s", "v", 1⟩, ⟨"s", "s", 5⟩]
  weight := "hops"

def partlyUsed : Topology Rat where
  nodes := [⟨"a", ⟨1, 1, 1, 1⟩, ⟨1, 1, 0, 0⟩, ["s"]⟩, ⟨"b", ⟨1, 1, 1, 1⟩, ⟨1, 1, 0, 0⟩, ["t"]⟩,
    ⟨"c", ⟨1, 1, 1, 1⟩, ⟨1, 1, 0, 0⟩, ["u"]⟩]
  links := [⟨"ab", "a", "b", 2, 1, 1⟩]
  canonical := [("a", "a"), ("b", "b"), ("c", "c")]
  tieTolerance := 0

def partialPlacement : Placement Rat where
  assignments := ⟨[("s", some "a"), ("t", some "b"), ("u", some "c"), ("v", none)]⟩
  routes := ⟨[(0, ["ab"]), (4, [])]⟩
  placementFailures := [⟨"v", PlacementFailure.noCapacity⟩]
  routingFailures := [⟨1, ⟨"t", "s", 2⟩, RoutingFailure.insufficientBandwidth⟩,
    ⟨2, ⟨"s", "u", 1⟩, RoutingFailure.noPath⟩, ⟨3, ⟨"s", "v", 1⟩, RoutingFailure.endpointUnplaced⟩]

theorem partial_placement_is_accounted_for :
    RoundingAccount allOutcomes partlyJoined partlyUsed partialPlacement := by
  have wellFormed : partlyJoined.WellFormed := ⟨by decide, by decide, by decide, by decide⟩
  exact rounding_accounts_for_everything ⟨firstChoice, ["a", "b", "c"], 0⟩ allOutcomes
    ⟨partlyJoined, ()⟩ ⟨partlyUsed, ()⟩ partialPlacement wellFormed (by cbv)

end EdgePlacement
