import EdgePlacement.Proofs.Capacity
import EdgePlacement.Proofs.NodeInvariants
import EdgePlacement.Proofs.Placement.Hosting

/-!
# Hosted services find a place again

A service that leaves a node makes room for itself there, even where its share was released before
and the floor at zero is met: what is in use afterwards, together with the share, is no more than
the larger one of the two was. Since every node is tried in the end, no service that a listed node
hosts when a rounding starts is left without a node by it.
-/

namespace EdgePlacement

set_option autoImplicit false

/-- The counters are in range, and no hosted service needs more than the whole node. -/
structure Node.HoldsHosted (needs : String → Resources Rat) (n : Node Rat) : Prop extends
    Node.WithinCapacity n where
  share : ∀ service, n.hosts service = true → ∀ d, (needs service).get d ≤ n.capacity.get d

namespace Node.HoldsHosted

variable {needs : String → Resources Rat} {n : Node Rat}

theorem of_same_hosts {n' : Node Rat} (holds : n.HoldsHosted needs) (within : n'.WithinCapacity)
    (capacity : n'.capacity = n.capacity)
    (hosts : ∀ service, n'.hosts service = true → n.hosts service = true) :
    n'.HoldsHosted needs where
  toWithinCapacity := within
  share service hosted d := capacity ▸ holds.share service (hosts service hosted) d

/-- A service was only ever put on a node in which it fits by itself. -/
theorem deploy {n' : Node Rat} {service : Service Rat} (holds : n.HoldsHosted needs)
    (carried : service.requirements = needs service.name)
    (nonneg : service.requirements.NotNegative) (fits : n.deploy? service = some n') :
    n'.HoldsHosted needs := by
  have within : n'.WithinCapacity :=
    holds.toWithinCapacity.step (.deploy n n' service nonneg fits)
  rcases deploy_cases fits with ⟨-, rfl⟩ | ⟨-, room, rfl⟩
  · exact holds
  · refine ⟨within, fun name hosted d => ?_⟩
    rcases (deploy_hosts fits name).mp hosted with new | old
    · have bound := LawfulCounter.within_of_fits _ _ ((Resources.fits_in_iff _ _ _).mp room d)
      rw [Resources.get_add, carried, ← new] at bound
      exact (le_add_of_nonneg_left (holds.above d)).trans bound
    · exact holds.share name old d

/-- What holds of the nodes of an empty topology is kept by every operation, when services carry
what their names stand for and nothing negative is reserved or released. -/
theorem kept (nonneg : ∀ service, (needs service).NotNegative) :
    KeptByOperations (fun service : Service Rat => service.requirements = needs service.name)
      Resources.NotNegative (HoldsHosted needs) where
  deploy n n' service carried holds fits :=
    holds.deploy carried (carried ▸ nonneg service.name) fits
  undeploy n service carried holds := by
    have within : (n.undeploy service).WithinCapacity :=
      holds.toWithinCapacity.step (.undeploy n service (carried ▸ nonneg service.name))
    apply holds.of_same_hosts within
    · unfold Node.undeploy
      split_ifs <;> rfl
    · exact fun name hosted => ((n.undeploy_hosts service name).mp hosted).2
  reserve n n' request admitted holds fits := by
    have within := holds.toWithinCapacity.reserve admitted fits
    unfold Node.reserve? at fits
    split_ifs at fits
    cases fits
    exact holds.of_same_hosts within rfl fun _ hosted => hosted
  release n request admitted holds :=
    holds.of_same_hosts (holds.toWithinCapacity.release admitted) rfl fun _ hosted => hosted
  reset n holds := holds.of_same_hosts holds.toWithinCapacity.reset rfl nofun

theorem of_empty (unused : n.usage = 0) (empty : n.hosted = [])
    (capacity : n.capacity.NotNegative) : n.HoldsHosted needs := by
  have above := (Resources.not_negative_iff _).mp capacity
  refine ⟨⟨fun d => ?_, fun d => ?_⟩, fun service hosted => ?_⟩
  · rw [unused, Resources.get_zero]
  · rw [unused, Resources.get_zero]
    exact not_lt.mp (above d)
  · rw [hosts, empty] at hosted
    cases hosted

/-- A service that leaves fits again. -/
theorem fits_again {service : Service Rat} (holds : n.HoldsHosted needs)
    (carried : service.requirements = needs service.name) (hosted : n.hosts service.name = true) :
    (n.undeploy service).canHost service.requirements = true := by
  have freed : n.undeploy service = { n.release service.requirements with
      hosted := n.hosted.filter (· ≠ service.name) } := if_pos hosted
  rw [freed, carried]
  refine (Resources.fits_in_iff _ _ _).mpr fun d => ?_
  have usage : (n.release (needs service.name)).usage.get d =
      max 0 (n.usage.get d - (needs service.name).get d) := by
    unfold release
    rw [Resources.get_floor_zero, Resources.get_sub, Quantity.positive_part_eq_max]
  calc ((n.release (needs service.name)).usage + needs service.name).get d
      = max 0 (n.usage.get d - (needs service.name).get d) + (needs service.name).get d := by
        rw [Resources.get_add, usage]
    _ = max ((needs service.name).get d) (n.usage.get d) := by
        rw [← max_add_add_right, zero_add, sub_add_cancel]
    _ ≤ n.capacity.get d + 0 := by
        rw [add_zero]
        exact max_le (holds.share service.name hosted d) (holds.below d)

end Node.HoldsHosted

/-! ## Placing -/

namespace RoundingPlan

variable {σ δ : Type} {needs : String → Resources Rat}

theorem place_retains {plan : RoundingPlan Rat σ δ} {service : Service Rat} {weights : List Rat}
    {s between : RoundingState Rat σ} {host : Option String}
    (distinct : s.topology.nodeNames.Nodup)
    (every : s.topology.EveryNode (Node.HoldsHosted needs))
    (carried : service.requirements = needs service.name) {node : String}
    (listed : node ∈ plan.nodeNames) (hosted : s.topology.Hosts node service.name)
    (placed : plan.place service weights s = (between, .ok host)) :
    ∃ name ∈ plan.nodeNames, host = some name := by
  obtain ⟨n, stored, rfl, hosts⟩ := hosted
  have outcome := plan.place_outcome service weights s
  rw [placed] at outcome
  have names : (s.topology.undeployEverywhere service).nodeNames.Nodup :=
    (s.topology.undeploy_everywhere_node_names service).symm ▸ distinct
  cases outcome with
  | placed before after m m' g order passed fits =>
      have candidate := candidates_are_nodes _ _ _ _ _ _ _ order m (by simp)
      have named := (plan.listed_nodes_are_nodes _ m candidate).2
      exact ⟨m'.name, (Node.deploy_keeps_name fits).symm ▸ named, rfl⟩
  | unplaced candidates g order full =>
      -- the former host is among the candidates, and it has room
      have free : n.undeploy service ∈ (s.topology.undeployEverywhere service).nodes :=
        List.mem_map_of_mem stored
      have known : (n.undeploy service).name ∈ plan.nodeNames :=
        (n.undeploy_keeps_name service).symm ▸ listed
      have tried := candidates_cover order (plan.listed_nodes_unique names)
        (plan.listed_nodes_cover names free known)
      have refused := Node.deploy_refused (full _ tried)
      have fits := (every n stored).fits_again carried hosts
      rw [fits] at refused
      cases refused

/-- The services before it leave a service where it is until its own turn comes. -/
theorem place_all_retains {plan : RoundingPlan Rat σ δ} {rows : List (Service Rat × List Rat)}
    {s s' : RoundingState Rat σ} {assignments : List (String × Option String)}
    (nonneg : ∀ service, (needs service).NotNegative)
    (distinct : s.topology.nodeNames.Nodup) (once : (rows.map (·.1.name)).Nodup)
    (carried : ∀ row ∈ rows, row.1.requirements = needs row.1.name)
    (every : s.topology.EveryNode (Node.HoldsHosted needs))
    (placed : plan.placeAll rows s = (s', .ok assignments)) :
    ∀ row ∈ rows, ∀ node ∈ plan.nodeNames, s.topology.Hosts node row.1.name →
      ∃ host ∈ plan.nodeNames, (row.1.name, some host) ∈ assignments := by
  induction rows generalizing s assignments with
  | nil => nofun
  | cons first rest ih =>
      obtain ⟨service, weights⟩ := first
      obtain ⟨fresh, onceRest⟩ := List.nodup_cons.mp once
      obtain ⟨carriedFirst, carriedRest⟩ := List.forall_mem_cons.mp carried
      obtain ⟨between, host, later, placing, afterwards, rfl⟩ := place_all_cons placed
      have rehosted := plan.place_rehosted service weights s between host distinct placing
      have everyBetween : between.topology.EveryNode (Node.HoldsHosted needs) := by
        have kept := (Node.HoldsHosted.kept nonneg).place plan carriedFirst weights every
        rwa [placing] at kept
      intro row member node listed hosted
      rcases List.mem_cons.mp member with rfl | member
      · obtain ⟨name, known, rfl⟩ := place_retains distinct every carriedFirst listed hosted placing
        exact ⟨name, known, List.mem_cons_self⟩
      · have other : row.1.name ≠ service.name := by
          intro same
          exact fresh (List.mem_map.mpr ⟨row, member, same⟩)
        have still := (rehosted.hosts node row.1.name).mpr (Or.inl ⟨other, hosted⟩)
        obtain ⟨name, known, assigned⟩ := ih (rehosted.names ▸ distinct) onceRest carriedRest
          everyBetween afterwards row member node listed still
        exact ⟨name, known, List.mem_cons_of_mem _ assigned⟩

end RoundingPlan

/-! ## Runs -/

/-- Planning again evicts nothing: whatever has been deployed, taken off, reserved, released and
rounded on empty nodes, and whatever is drawn now, a rounding that returns has a node for each of
its services that one of its nodes was hosting. -/
theorem rounding_again_evicts_nothing {σ δ : Type} (t : Topology Rat)
    (operations : List (Operation Rat)) (wellFormed : t.WellFormed)
    (empty : ∀ n ∈ t.nodes, n.usage = 0 ∧ n.hosted = [])
    (capacities : ∀ n ∈ t.nodes, n.capacity.isNegative = false)
    (needs : String → Resources Rat) (nonneg : ∀ service, (needs service).isNegative = false)
    (carried : ∀ operation ∈ operations, ∀ service ∈ operation.services,
      service.requirements = needs service.name)
    (requested : ∀ operation ∈ operations, ∀ request ∈ operation.requests,
      request.isNegative = false)
    (plan : RoundingPlan Rat σ δ) (input : RoundingInput Rat)
    (carriedAgain : ∀ service ∈ input.services, service.requirements = needs service.name)
    (g : σ) (s' : RoundingState Rat σ) (placement : Placement Rat)
    (returned : roundFractions plan input ⟨Operation.run operations t, g⟩ = (s', .ok placement)) :
    ∀ service ∈ input.services, ∀ n ∈ (Operation.run operations t).nodes,
      n.hosts service.name = true → n.name ∈ plan.nodeNames →
        ∃ host ∈ plan.nodeNames, placement.nodeOf? service.name = some host := by
  intro service member n stored hosted known
  have names : (Operation.run operations t).nodeNames.Nodup :=
    (wellFormed.of_same_layout (Operation.run_keeps_layout operations wellFormed)).names_distinct
  have every : (Operation.run operations t).EveryNode (Node.HoldsHosted needs) := by
    apply (Node.HoldsHosted.kept nonneg).run operations carried requested
    exact fun n stored => .of_empty (empty n stored).1 (empty n stored).2 (capacities n stored)
  obtain ⟨once, rehosted⟩ := rounding_rehosts plan input _ s' placement names returned
  have keys : (placement.assignments.entries.map (·.1)).Nodup := rehosted.covered ▸ once
  obtain ⟨accepted, placed, assignments, routing, placing, -, rfl⟩ := round_returned returned
  obtain ⟨sameLength, -, -⟩ := RoundingInput.accepted accepted
  have rowNames := RoundingInput.row_names sameLength
  have retained := RoundingPlan.place_all_retains nonneg names (rowNames ▸ once)
    (fun row listed => carriedAgain row.1 (List.of_mem_zip listed).1) every placing
  have listed : service.name ∈ (input.services.zip input.fractions.rows).map (·.1.name) :=
    rowNames ▸ List.mem_map_of_mem member
  obtain ⟨row, rowListed, named⟩ := List.mem_map.mp listed
  obtain ⟨host, hostKnown, assigned⟩ :=
    retained row rowListed n.name known ⟨n, stored, rfl, named ▸ hosted⟩
  refine ⟨host, hostKnown, ?_⟩
  have found := (OrderedMap.get_eq_some_iff keys row.1.name (some host)).mpr assigned
  exact named ▸ congrArg Option.join found

def unevenPair : Topology Rat where
  nodes := [Node.fresh "a" ⟨3, 3, 3, 3⟩, Node.fresh "b" ⟨1, 1, 1, 1⟩]
  links := []
  canonical := [("a", "a"), ("b", "b")]
  tieTolerance := 0

def unevenNeeds (service : String) : Resources Rat :=
  if service = "s" then ⟨2, 0, 0, 0⟩ else ⟨1, 0, 0, 0⟩

def unevenRun : List (Operation Rat) :=
  [.deploy "a" ⟨"s", 2, 0, 1, 0, 0, 0⟩, .release "a" ⟨2, 0, 0, 0⟩]

/-- The service is preferred where it does not fit, and has its turn after another one has taken
some of what was released. -/
def unevenInput : RoundingInput Rat where
  fractions := ⟨2, [[1, 0], [0, 1]]⟩
  services := [⟨"u", 1, 0, 1, 0, 0, 0⟩, ⟨"s", 2, 0, 1, 0, 0, 0⟩]
  demands := []
  weight := "latency"

def unevenAfter : Topology Rat where
  nodes := [⟨"a", ⟨3, 3, 3, 3⟩, ⟨2, 0, 0, 0⟩, ["u", "s"]⟩, Node.fresh "b" ⟨1, 1, 1, 1⟩]
  links := []
  canonical := [("a", "a"), ("b", "b")]
  tieTolerance := 0

def unevenPlacement : Placement Rat :=
  ⟨⟨[("u", some "a"), ("s", some "a")]⟩, ⟨[]⟩, [], []⟩

theorem uneven_rounding_evicts_nothing :
    (Operation.run unevenRun unevenPair).Hosts "a" "s" ∧
    ∃ host ∈ ["a", "b"], unevenPlacement.nodeOf? "s" = some host := by
  have wellFormed : unevenPair.WellFormed := ⟨by decide, by decide, by decide, by decide⟩
  have nonneg : ∀ service, (unevenNeeds service).isNegative = false := by
    intro service
    unfold unevenNeeds
    split <;> decide
  have nodes : (Operation.run unevenRun unevenPair).nodes =
      [⟨"a", ⟨3, 3, 3, 3⟩, ⟨0, 0, 0, 0⟩, ["s"]⟩, Node.fresh "b" ⟨1, 1, 1, 1⟩] := by cbv
  have member := nodes ▸ List.mem_cons_self
  refine ⟨⟨_, member, rfl, by decide⟩, ?_⟩
  exact rounding_again_evicts_nothing unevenPair unevenRun wellFormed (by decide) (by decide)
    unevenNeeds nonneg (by decide) (by decide) ⟨firstChoice, ["a", "b"], 0⟩ unevenInput (by decide)
    () ⟨unevenAfter, ()⟩ unevenPlacement (by cbv) ⟨"s", 2, 0, 1, 0, 0, 0⟩ (by decide) _ member
    (by decide) (by decide)

end EdgePlacement
