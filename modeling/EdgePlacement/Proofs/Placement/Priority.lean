import EdgePlacement.Proofs.Network.Demands
import EdgePlacement.Proofs.Placement.Turns

/-!
# Earlier input comes first

A service is taken off its former nodes when its own turn comes and not before, and no turn looks at
what comes after it. What is decided about a service or about a demand therefore stays as it is when
further services, or further demands, are added at the end.
-/

namespace EdgePlacement

set_option autoImplicit false

variable {α σ δ : Type}

structure Placement.AgreeOnService (placement placement' : Placement α) (service : String) :
    Prop where
  assignment : placement'.assignments.get? service = placement.assignments.get? service
  failure : ∀ reason, ⟨service, reason⟩ ∈ placement'.placementFailures ↔
    ⟨service, reason⟩ ∈ placement.placementFailures

structure Placement.AgreeOnDemand (placement placement' : Placement α) (i : Nat)
    (demand : Demand α) : Prop where
  route : ∀ ids, ((i : Int), ids) ∈ placement'.routes.entries ↔
    ((i : Int), ids) ∈ placement.routes.entries
  failure : ∀ reason, ⟨i, demand, reason⟩ ∈ placement'.routingFailures ↔
    ⟨i, demand, reason⟩ ∈ placement.routingFailures

theorem Placement.mem_failures_iff {assignments : List (String × Option String)}
    (distinct : (assignments.map (·.1)).Nodup) (routing : Routing α) (service reason : String) :
    ⟨service, reason⟩ ∈ (Placement.ofParts assignments routing).placementFailures ↔
      (⟨assignments⟩ : Assignments).get? service = some none ∧
        reason = PlacementFailure.noCapacity := by
  unfold Placement.ofParts
  rw [OrderedMap.get_eq_some_iff distinct, List.mem_filterMap]
  constructor
  · rintro ⟨⟨name, node⟩, member, reported⟩
    cases node with
    | none =>
        cases reported
        exact ⟨member, rfl⟩
    | some node => cases reported
  · rintro ⟨member, rfl⟩
    exact ⟨(service, none), member, rfl⟩

variable [Quantity α]

/-! ## Further services -/

variable [PathChoice α]

theorem further_services_agree [Summation α] {plan : RoundingPlan α σ δ}
    {input longer : RoundingInput α}
    {s s' t : RoundingState α σ} {placement placement' : Placement α}
    (services : input.services <+: longer.services)
    (rows : input.fractions.rows <+: longer.fractions.rows)
    (returned : roundFractions plan input s = (s', .ok placement))
    (returned' : roundFractions plan longer s = (t, .ok placement')) {service : Service α}
    (listed : service ∈ input.services) :
    placement.AgreeOnService placement' service.name := by
  obtain ⟨accepted, placed, assignments, routing, placing, -, rfl⟩ := round_returned returned
  obtain ⟨accepted', placed', assignments', routing', placing', -, rfl⟩ :=
    round_returned returned'
  obtain ⟨covered, once⟩ := assigned_once accepted placing
  obtain ⟨-, once'⟩ := assigned_once accepted' placing'
  obtain ⟨moreServices, sameServices⟩ := services
  obtain ⟨moreRows, sameRows⟩ := rows
  -- the longer placing begins with the shorter one
  have begins : ∃ later, assignments' = assignments ++ later := by
    have sameLength := (RoundingInput.accepted accepted).1
    rw [← sameServices, ← sameRows, List.zip_append sameLength.symm] at placing'
    obtain ⟨between, earlier, later, before, -, rfl⟩ := RoundingPlan.place_all_cut placing'
    rw [placing] at before
    cases before
    exact ⟨later, rfl⟩
  obtain ⟨later, rfl⟩ := begins
  have name : service.name ∈ assignments.map (·.1) := covered ▸ List.mem_map_of_mem listed
  obtain ⟨⟨named, host⟩, entry, same⟩ := List.mem_map.mp name
  have assigned : (⟨assignments⟩ : Assignments).get? service.name = some host := by
    rw [OrderedMap.get_eq_some_iff once, ← same]
    exact entry
  have assigned' : (⟨assignments ++ later⟩ : Assignments).get? service.name = some host := by
    rw [OrderedMap.get_eq_some_iff once', ← same]
    exact List.mem_append_left later entry
  constructor
  · exact assigned'.trans assigned.symm
  · intro reason
    rw [Placement.mem_failures_iff once', Placement.mem_failures_iff once, assigned, assigned']

/-! ## Further demands -/

/-- What the demands come to that are routed first is settled before the others are met. -/
theorem Topology.routing_begins {t t' t'' : Topology α} {assignments : Assignments}
    {weight : String} {demands more : List (Demand α)} {routing routing' : Routing α}
    (routed : t.routeDemands demands assignments weight = (t', .ok routing))
    (routed' : t.routeDemands (demands ++ more) assignments weight = (t'', .ok routing')) :
    ∃ outcomes later, routing = RouteOutcome.collect 0 demands outcomes ∧
      routing' = RouteOutcome.collect 0 (demands ++ more) (outcomes ++ later) ∧
      outcomes.length = demands.length ∧ later.length = more.length := by
  obtain ⟨outcomes, run, rfl⟩ := route_from_run routed'
  obtain ⟨between, first, second⟩ := run.cut demands.length
  rw [List.take_left] at first
  rw [List.drop_left] at second
  have collected := first.route_from_eq 0
  unfold routeDemands at routed
  rw [routed] at collected
  refine ⟨outcomes.take demands.length, outcomes.drop demands.length, ?_, ?_, ?_, ?_⟩
  · cases collected
    rfl
  · rw [List.take_append_drop]
  · exact first.outcome_count
  · exact second.outcome_count

variable [Summation α]

theorem further_demands_agree {plan : RoundingPlan α σ δ} {input : RoundingInput α}
    {s s' t : RoundingState α σ} {placement placement' : Placement α} (more : List (Demand α))
    (returned : roundFractions plan input s = (s', .ok placement))
    (returned' : roundFractions plan { input with demands := input.demands ++ more } s =
      (t, .ok placement')) {i : Nat} {demand : Demand α}
    (listed : input.demands[i]? = some demand) :
    placement.AgreeOnDemand placement' i demand := by
  obtain ⟨-, placed, assignments, routing, placing, routed, rfl⟩ := round_returned returned
  obtain ⟨-, placed', assignments', routing', placing', routed', rfl⟩ := round_returned returned'
  rw [placing] at placing'
  cases placing'
  obtain ⟨outcomes, later, rfl, rfl, paired, pairedLater⟩ :=
    Topology.routing_begins routed routed'
  have inside : i < outcomes.length := paired ▸ (List.getElem?_eq_some_iff.mp listed).1
  have outcome : (outcomes ++ later)[i]? = outcomes[i]? := List.getElem?_append_left inside
  have paired' : (outcomes ++ later).length = (input.demands ++ more).length := by
    rw [List.length_append, List.length_append, paired, pairedLater]
  have listed' : (input.demands ++ more)[i]? = some demand := by
    rw [List.getElem?_append_left (paired ▸ inside), listed]
  constructor
  · intro ids
    apply (RouteOutcome.route_collected_iff paired' i ids).trans
    rw [outcome]
    exact (RouteOutcome.route_collected_iff paired i ids).symm
  · intro reason
    apply (RouteOutcome.failure_collected_iff listed' reason).trans
    rw [outcome]
    exact (RouteOutcome.failure_collected_iff listed reason).symm

/-- What is decided earlier stays decided: from whatever state, with whatever matrix and draws, the
services that an input begins with are assigned, or left out, as they are without the services and
rows that come after them, and the demands are routed, or refused for the same reason, as they are
without the demands that come after them. -/
theorem later_input_changes_no_earlier_decision (plan : RoundingPlan α σ δ)
    (input : RoundingInput α) (s s' : RoundingState α σ) (placement : Placement α)
    (returned : roundFractions plan input s = (s', .ok placement)) :
    (∀ (longer : RoundingInput α) (t : RoundingState α σ) (placement' : Placement α),
      input.services <+: longer.services → input.fractions.rows <+: longer.fractions.rows →
      roundFractions plan longer s = (t, .ok placement') →
      ∀ service ∈ input.services, placement.AgreeOnService placement' service.name) ∧
    ∀ (more : List (Demand α)) (t : RoundingState α σ) (placement' : Placement α),
      roundFractions plan { input with demands := input.demands ++ more } s =
        (t, .ok placement') →
      ∀ (i : Nat) (demand : Demand α), input.demands[i]? = some demand →
        placement.AgreeOnDemand placement' i demand := by
  constructor
  · intro longer t placement' services rows returned' service listed
    exact further_services_agree services rows returned returned' listed
  · intro more t placement' returned' i demand listed
    exact further_demands_agree more returned returned' listed

def partlyTaken : Topology Rat where
  nodes := [Node.fresh "a" ⟨1, 1, 1, 1⟩, ⟨"b", ⟨1, 1, 1, 1⟩, ⟨1, 1, 0, 0⟩, ["u"]⟩,
    Node.fresh "c" ⟨1, 1, 1, 1⟩]
  links := [⟨"ac", "a", "c", 2, 1, 0⟩]
  canonical := [("a", "a"), ("b", "b"), ("c", "c")]
  tieTolerance := 0

def earlyInput : RoundingInput Rat where
  fractions := ⟨3, [[1, 0, 0], [1, 0, 0]]⟩
  services := [⟨"s", 1, 1, 0, 0, 0, 0⟩, ⟨"t", 1, 1, 0, 0, 0, 0⟩]
  demands := [⟨"s", "t", 1⟩]
  weight := "hops"

def lateServices : RoundingInput Rat where
  fractions := ⟨3, [[1, 0, 0], [1, 0, 0], [0, 1, 0], [0, 0, 1]]⟩
  services := [⟨"s", 1, 1, 0, 0, 0, 0⟩, ⟨"t", 1, 1, 0, 0, 0, 0⟩, ⟨"u", 1, 1, 0, 0, 0, 0⟩,
    ⟨"v", 1, 1, 0, 0, 0, 0⟩]
  demands := [⟨"s", "u", 1⟩]
  weight := "latency"

def takenTopology (hosted : List String) (used : Rat) : Topology Rat where
  nodes := [⟨"a", ⟨1, 1, 1, 1⟩, ⟨1, 1, 0, 0⟩, ["s"]⟩, ⟨"b", ⟨1, 1, 1, 1⟩, ⟨1, 1, 0, 0⟩, hosted⟩,
    ⟨"c", ⟨1, 1, 1, 1⟩, ⟨1, 1, 0, 0⟩, ["t"]⟩]
  links := [⟨"ac", "a", "c", 2, 1, used⟩]
  canonical := [("a", "a"), ("b", "b"), ("c", "c")]
  tieTolerance := 0

def earlyPlacement : Placement Rat :=
  ⟨⟨[("s", some "a"), ("t", some "c")]⟩, ⟨[(0, ["ac"])]⟩, [], []⟩

def latePlacement : Placement Rat where
  assignments := ⟨[("s", some "a"), ("t", some "c"), ("u", some "b"), ("v", none)]⟩
  routes := ⟨[]⟩
  placementFailures := [⟨"v", PlacementFailure.noCapacity⟩]
  routingFailures := [⟨0, ⟨"s", "u", 1⟩, RoutingFailure.noPath⟩]

def crowdedPlacement : Placement Rat where
  assignments := ⟨[("s", some "a"), ("t", some "c")]⟩
  routes := ⟨[(0, ["ac"])]⟩
  placementFailures := []
  routingFailures := [⟨1, ⟨"t", "s", 2⟩, RoutingFailure.insufficientBandwidth⟩]

theorem late_services_and_demands_change_nothing_early :
    earlyPlacement.AgreeOnService latePlacement "t" ∧
    earlyPlacement.AgreeOnDemand crowdedPlacement 0 ⟨"s", "t", 1⟩ := by
  obtain ⟨ofServices, ofDemands⟩ := later_input_changes_no_earlier_decision
    ⟨firstChoice, ["a", "b", "c"], 0⟩ earlyInput ⟨partlyTaken, ()⟩
    ⟨takenTopology ["u"] 1, ()⟩ earlyPlacement (by cbv)
  constructor
  · exact ofServices lateServices ⟨takenTopology ["u"] 0, ()⟩ latePlacement ⟨_, rfl⟩ ⟨_, rfl⟩
      (by cbv) ⟨"t", 1, 1, 0, 0, 0, 0⟩ (by decide)
  · exact ofDemands [⟨"t", "s", 2⟩] ⟨takenTopology ["u"] 1, ()⟩ crowdedPlacement (by cbv) 0
      ⟨"s", "t", 1⟩ rfl

end EdgePlacement
