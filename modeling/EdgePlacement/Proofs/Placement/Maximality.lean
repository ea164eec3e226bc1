import EdgePlacement.Proofs.Placement.Refusals
import EdgePlacement.Proofs.Resources

/-!
# Nothing that would still fit is left out

A service that is not placed has been offered to every node, and a demand that is refused has met a
link without room on the only path that it would take. Both are settled in the middle of a run that
starts from unused nodes and links, and both remain so: from then on usage only grows.
-/

namespace EdgePlacement

set_option autoImplicit false

section Unhosted

variable {α : Type} [Quantity α]

theorem undeploy_everywhere_unhosted {t : Topology α} {service : Service α}
    (unhosted : ∀ node, ¬ t.Hosts node service.name) : t.undeployEverywhere service = t := by
  have same : t.nodes.map (fun n => n.undeploy service) = t.nodes := by
    refine (List.map_congr_left fun n member => ?_).trans t.nodes.map_id
    have absent : ¬ n.hosts service.name = true :=
      fun hosted => unhosted n.name ⟨n, member, rfl, hosted⟩
    exact if_neg absent
  unfold Topology.undeployEverywhere
  rw [same]

end Unhosted

/-! ## Growing usage of nodes -/

structure Node.GrownFrom (n' n : Node Rat) : Prop where
  capacity : n'.capacity = n.capacity
  usage : ∀ d, n.usage.get d ≤ n'.usage.get d

def Topology.NodesGrow (t t' : Topology Rat) : Prop :=
  ∀ n' ∈ t'.nodes, ∃ n ∈ t.nodes, n'.GrownFrom n

theorem Node.GrownFrom.refl (n : Node Rat) : n.GrownFrom n :=
  ⟨rfl, fun _ => le_rfl⟩

theorem Topology.NodesGrow.refl (t : Topology Rat) : t.NodesGrow t :=
  fun n member => ⟨n, member, .refl n⟩

theorem Topology.NodesGrow.trans {t t' t'' : Topology Rat} (first : t.NodesGrow t')
    (second : t'.NodesGrow t'') : t.NodesGrow t'' := by
  intro n'' member''
  obtain ⟨n', member', capacity', usage'⟩ := second n'' member''
  obtain ⟨n, member, capacity, usage⟩ := first n' member'
  exact ⟨n, member, capacity'.trans capacity, fun d => (usage d).trans (usage' d)⟩

/-- What does not fit on a node does not fit when more of it is in use. -/
theorem Node.GrownFrom.still_full {n n' : Node Rat} (grown : n'.GrownFrom n)
    {request : Resources Rat} (full : n.canHost request = false) : n'.canHost request = false := by
  rw [Bool.eq_false_iff, ne_eq] at full ⊢
  intro fits
  apply full
  unfold Node.canHost at fits ⊢
  rw [Resources.fits_in_iff] at fits ⊢
  intro d
  have bound := fits d
  rw [Resources.get_add, grown.capacity] at bound
  rw [Resources.get_add]
  exact (add_le_add_left (grown.usage d) _).trans bound

theorem deploy_grows {n n' : Node Rat} {service : Service Rat}
    (requirements : service.requirements.isNegative = false)
    (fits : n.deploy? service = some n') : n'.GrownFrom n := by
  rcases Node.deploy_cases fits with ⟨-, rfl⟩ | ⟨-, -, rfl⟩
  · exact .refl n'
  · refine ⟨rfl, fun d => ?_⟩
    have nonneg := (Resources.not_negative_iff _).mp requirements d
    dsimp only
    rw [Resources.get_add]
    exact le_add_of_nonneg_right (not_lt.mp nonneg)

theorem update_node_grows {t : Topology Rat} {n n' : Node Rat} (member : n ∈ t.nodes)
    (grown : n'.GrownFrom n) : t.NodesGrow (t.updateNode n'.name fun _ => n') := by
  intro m' member'
  obtain ⟨m, stored, rfl⟩ := List.mem_map.mp member'
  split_ifs
  · exact ⟨n, member, grown⟩
  · exact ⟨m, stored, .refl m⟩

/-! ## Placing -/

namespace RoundingPlan

variable {σ δ : Type}

/-- A service that no node hosts is put on a node, whose usage grows, or fits on none. -/
structure PlacedOrFull (s s' : RoundingState Rat σ) (service : Service Rat)
    (host : Option String) : Prop where
  grows : s.topology.NodesGrow s'.topology
  full : host = none → ∀ n ∈ s'.topology.nodes, n.canHost service.requirements = false

theorem place_maximal (plan : RoundingPlan Rat σ δ) (service : Service Rat) (weights : List Rat)
    (s s' : RoundingState Rat σ) (host : Option String) (distinct : s.topology.nodeNames.Nodup)
    (covering : ∀ name ∈ s.topology.nodeNames, name ∈ plan.nodeNames)
    (unhosted : ∀ node, ¬ s.topology.Hosts node service.name)
    (requirements : service.requirements.isNegative = false)
    (placed : plan.place service weights s = (s', .ok host)) :
    PlacedOrFull s s' service host := by
  have outcome := plan.place_outcome service weights s
  have start := undeploy_everywhere_unhosted unhosted
  rw [placed] at outcome
  cases outcome with
  | placed before after n n' g order passed fits =>
      rw [start] at order
      have candidate := candidates_are_nodes _ _ _ _ _ _ _ order n (by simp)
      obtain ⟨stored, -⟩ := plan.listed_nodes_are_nodes _ n candidate
      constructor
      · rw [start]
        exact update_node_grows stored (deploy_grows requirements fits)
      · intro missing
        cases missing
  | unplaced candidates g order full =>
      rw [start] at order ⊢
      constructor
      · exact .refl _
      · intro _ n stored
        have unique := listed_nodes_unique plan distinct
        have named := covering n.name (List.mem_map_of_mem stored)
        have tried := candidates_cover order unique (listed_nodes_cover plan distinct stored named)
        exact Node.deploy_refused (full n tried)

/-- A service that fits nowhere when its turn comes fits nowhere after the services that follow
it. -/
theorem place_all_maximal (plan : RoundingPlan Rat σ δ)
    (rows : List (Service Rat × List Rat)) (s s' : RoundingState Rat σ)
    (assignments : List (String × Option String)) (distinct : s.topology.nodeNames.Nodup)
    (covering : ∀ name ∈ s.topology.nodeNames, name ∈ plan.nodeNames)
    (once : (rows.map (·.1.name)).Nodup)
    (unhosted : ∀ row ∈ rows, ∀ node, ¬ s.topology.Hosts node row.1.name)
    (requirements : ∀ row ∈ rows, row.1.requirements.isNegative = false)
    (placed : plan.placeAll rows s = (s', .ok assignments)) :
    s.topology.NodesGrow s'.topology ∧
      ∀ name, (name, none) ∈ assignments → ∃ row ∈ rows, row.1.name = name ∧
        ∀ n ∈ s'.topology.nodes, n.canHost row.1.requirements = false := by
  induction rows generalizing s assignments with
  | nil =>
      cases placed
      exact ⟨.refl _, nofun⟩
  | cons row rest ih =>
      obtain ⟨service, weights⟩ := row
      obtain ⟨-, onceRest⟩ := List.nodup_cons.mp once
      obtain ⟨between, host, later, first, afterwards, rfl⟩ := place_all_cons placed
      have rehosted := plan.place_rehosted service weights s between host distinct first
      have step := plan.place_maximal service weights s between host distinct covering
        (unhosted (service, weights) List.mem_cons_self)
        (requirements (service, weights) List.mem_cons_self) first
      have unhostedRest := rehosted.rest_unhosted once unhosted
      obtain ⟨grows, full⟩ := ih between later (rehosted.names ▸ distinct)
        (rehosted.names ▸ covering) onceRest unhostedRest
        (fun row member => requirements row (List.mem_cons_of_mem _ member)) afterwards
      refine ⟨step.grows.trans grows, fun name member => ?_⟩
      rcases List.mem_cons.mp member with here | further
      · obtain ⟨rfl, missing⟩ := Prod.mk.inj here
        refine ⟨_, List.mem_cons_self, rfl, fun n' member' => ?_⟩
        obtain ⟨n, stored, grown⟩ := grows n' member'
        exact grown.still_full (step.full missing.symm n stored)
      · obtain ⟨row, listed, named, fitsNowhere⟩ := full name further
        exact ⟨row, List.mem_cons_of_mem _ listed, named, fitsNowhere⟩

end RoundingPlan

/-! ## Roundings -/

structure LeavesNothingFitting (services : List (Service Rat)) (weight : String)
    (placement : Placement Rat) (t : Topology Rat) : Prop where
  listed : ∀ name ∈ placement.unplaced, name ∈ services.map (·.name)
  services : ∀ service ∈ services, service.name ∈ placement.unplaced →
    ∀ n ∈ t.nodes, n.canHost service.requirements = false
  demands : ∀ failure ∈ placement.routingFailures,
    failure.reason = RoutingFailure.insufficientBandwidth →
      ∃ a b, failure.demand.Between placement.assignments a b ∧
        t.Blocked a b weight failure.demand.bandwidth

theorem Placement.mem_unplaced_iff {α : Type} (assignments : List (String × Option String))
    (routing : Routing α) (name : String) :
    name ∈ (Placement.ofParts assignments routing).unplaced ↔ (name, none) ∈ assignments := by
  unfold Placement.unplaced Placement.ofParts
  rw [List.map_filterMap, List.mem_filterMap]
  constructor
  · rintro ⟨⟨service, node⟩, member, reported⟩
    cases node with
    | none =>
        cases reported
        exact member
    | some node => cases reported
  · intro member
    exact ⟨(name, none), member, rfl⟩

variable {σ δ : Type}

/-- A rounding that starts with none of its services hosted leaves out nothing that would fit when
it is over. -/
theorem round_leaves_nothing_fitting {plan : RoundingPlan Rat σ δ} {input : RoundingInput Rat}
    {s s' : RoundingState Rat σ} {placement : Placement Rat} (wellFormed : s.topology.WellFormed)
    (covering : ∀ name ∈ s.topology.nodeNames, name ∈ plan.nodeNames)
    (unhosted : ∀ service node, ¬ s.topology.Hosts node service)
    (nonneg : ∀ l ∈ s.topology.links, 0 ≤ l.used)
    (requirements : ∀ service ∈ input.services, service.requirements.isNegative = false)
    (bandwidths : ∀ demand ∈ input.demands, 0 ≤ demand.bandwidth)
    (returned : roundFractions plan input s = (s', .ok placement)) :
    LeavesNothingFitting input.services input.weight placement s'.topology := by
  obtain ⟨accepted, placed, assignments, routing, placing, routed, rfl⟩ := round_returned returned
  obtain ⟨sameLength, once, -⟩ := RoundingInput.accepted accepted
  have rowNames := RoundingInput.row_names sameLength
  have sameNodes := Topology.routed_keeps_nodes routed
  obtain ⟨-, full⟩ := plan.place_all_maximal (input.services.zip input.fractions.rows) s placed
    assignments wellFormed.names_distinct covering (rowNames ▸ once)
    (fun row _ => unhosted row.1.name)
    (fun row member => requirements row.1 (List.of_mem_zip member).1) placing
  obtain ⟨layout, keepsRest⟩ := place_all_keeps_rest plan wellFormed placing
  have sameLinks : placed.topology.links = s.topology.links := by rw [keepsRest]
  obtain ⟨outcomes, run, rfl⟩ := Topology.route_from_run routed
  constructor
  · intro name member
    obtain ⟨row, listed, rfl, -⟩ := full name ((Placement.mem_unplaced_iff _ _ _).mp member)
    exact List.mem_map_of_mem (List.of_mem_zip listed).1
  · intro service member unplaced
    obtain ⟨row, listed, named, fitsNowhere⟩ :=
      full service.name ((Placement.mem_unplaced_iff _ _ _).mp unplaced)
    have same : row.1 = service :=
      List.inj_on_of_nodup_map once (List.of_mem_zip listed).1 member named
    rw [sameNodes, ← same]
    exact fitsNowhere
  · intro failure member refused
    obtain ⟨i, demand, reason, listed, outcome, rfl⟩ :=
      (RouteOutcome.mem_collect_failures_iff 0 input.demands outcomes failure).mp member
    dsimp only at refused
    subst refused
    exact run.refused_demand_blocked (wellFormed.of_same_layout layout) (sameLinks ▸ nonneg)
      bandwidths listed outcome

/-! ## Plans -/

section Reset

variable {α : Type} [Quantity α]

theorem Topology.reset_hosts_nothing (t : Topology α) (node service : String) :
    ¬ t.resetUsage.Hosts node service := by
  rintro ⟨n, member, -, hosted⟩
  obtain ⟨origin, -, rfl⟩ := List.mem_map.mp member
  cases hosted

theorem Topology.reset_links_unused (t : Topology α) : ∀ l ∈ t.resetUsage.links, l.used = 0 := by
  intro l member
  obtain ⟨origin, -, rfl⟩ := List.mem_map.mp member
  rfl

end Reset

/-- Greedy maximality: whatever is solved and drawn, a plan made from unused nodes and links leaves
out no service that some node could still host, and refuses no demand for want of bandwidth that the
path between its hosts could still carry. -/
theorem plan_leaves_nothing_fitting (planner : Planner Rat σ δ) (t t' : Topology Rat)
    (workload : Workload Rat) (settings : Settings Rat) (skippedRecords : Nat) (plan : Plan Rat)
    (wellFormed : t.WellFormed) (fromUnused : settings.resetUsage = true)
    (requirements : ∀ service ∈ workload.services, service.requirements.isNegative = false)
    (bandwidths : ∀ demand ∈ workload.demands, 0 ≤ demand.bandwidth)
    (returned : planner.run t workload settings skippedRecords = (t', .ok plan)) :
    LeavesNothingFitting workload.services settings.weight.name plan.placement t' := by
  obtain ⟨fractions, g, s', rounded, rfl⟩ := run_returned returned
  rw [if_pos fromUnused] at rounded
  apply round_leaves_nothing_fitting _ _ _ _ requirements bandwidths rounded
  · exact wellFormed.of_same_layout t.reset_twice
  · intro name member
    rwa [← t.reset_node_names]
  · exact fun service node => t.reset_hosts_nothing node service
  · exact fun l stored => (t.reset_links_unused l stored).ge

def fullPair : Topology Rat where
  nodes := [⟨"a", ⟨3, 3, 3, 3⟩, ⟨3, 0, 0, 0⟩, ["t"]⟩, ⟨"b", ⟨3, 3, 3, 3⟩, ⟨3, 0, 0, 0⟩, ["u"]⟩]
  links := [⟨"ab", "a", "b", 1, 1, 1⟩]
  canonical := [("a", "a"), ("b", "b")]
  tieTolerance := 0

/-- Three services that the two nodes can only hold together when one of them is split. -/
def threeServices : Workload Rat where
  services := [⟨"s", 2, 0, 1, 0, 0, 0⟩, ⟨"t", 2, 0, 1, 0, 0, 0⟩, ⟨"u", 2, 0, 1, 0, 0, 0⟩]
  demands := [⟨"s", "t", 1⟩, ⟨"t", "s", 1⟩]

def splitting : Planner Rat Unit Unit where
  solver := ⟨fun _ => .solved [1, 0, 0, 1, 1 / 2, 1 / 2], fun _ => .stopped⟩
  sampler := firstChoice
  unseeded := ()

def splitPlan : Plan Rat where
  fractions := ⟨2, [[1, 0], [0, 1], [1 / 2, 1 / 2]]⟩
  serviceNames := ["s", "t", "u"]
  nodeNames := ["a", "b"]
  placement := {
    assignments := ⟨[("s", some "a"), ("t", some "b"), ("u", none)]⟩
    routes := ⟨[(0, ["ab"])]⟩
    placementFailures := [⟨"u", PlacementFailure.noCapacity⟩]
    routingFailures := [⟨1, ⟨"t", "s", 1⟩, RoutingFailure.insufficientBandwidth⟩] }
  objective := 3
  backend := .highs
  skippedRecords := 0

def pairAfterPlan : Topology Rat where
  nodes := [⟨"a", ⟨3, 3, 3, 3⟩, ⟨2, 0, 0, 0⟩, ["s"]⟩, ⟨"b", ⟨3, 3, 3, 3⟩, ⟨2, 0, 0, 0⟩, ["t"]⟩]
  links := [⟨"ab", "a", "b", 1, 1, 1⟩]
  canonical := [("a", "a"), ("b", "b")]
  tieTolerance := 0

theorem split_service_fits_nowhere :
    LeavesNothingFitting threeServices.services PathWeight.latency.name splitPlan.placement
      pairAfterPlan := by
  have wellFormed : fullPair.WellFormed := ⟨by decide, by decide, by decide, by decide⟩
  exact plan_leaves_nothing_fitting splitting fullPair pairAfterPlan threeServices
    ⟨none, .highs, 0, .latency, true, false, none⟩ 0 splitPlan wellFormed rfl (by decide)
    (by decide) (by cbv)

end EdgePlacement
