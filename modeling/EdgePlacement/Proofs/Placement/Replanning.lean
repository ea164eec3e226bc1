import EdgePlacement.Proofs.Network.Bandwidth
import EdgePlacement.Proofs.Placement.HostedShares

/-!
# Rounding twice

A rounding takes its services off their nodes by what they need now and not by what was reserved for
them, and it gives no bandwidth back. When a second rounding follows a first one without a reset,
the difference stays in use where services need less than before, and the links carry the routes of
both roundings.
-/

namespace EdgePlacement

set_option autoImplicit false

variable {σ δ : Type}

/-- What a service of this name needs as the input has it, and nothing where it has none. -/
def RoundingInput.needs (input : RoundingInput Rat) (service : String) : Resources Rat :=
  ((input.services.find? fun listed => listed.name = service).map (·.requirements)).getD 0

def Placement.load (placement : Placement Rat) (demands : List (Demand Rat)) (link : String) :
    Rat :=
  Routing.load ⟨placement.routes.entries, placement.routingFailures⟩ demands 0 link

/-- How much more the services on the node needed together before their needs were changed. -/
def Node.excess (before after : String → Resources Rat) (n : Node Rat) (d : Dimension) : Rat :=
  n.booked before d - n.booked after d

namespace RoundingInput

variable {input : RoundingInput Rat}

theorem needs_of_listed (once : (input.services.map (·.name)).Nodup) {service : Service Rat}
    (listed : service ∈ input.services) : service.requirements = input.needs service.name := by
  unfold needs
  rw [find_by_key Service.name once listed]
  rfl

theorem needs_not_negative
    (requirements : ∀ service ∈ input.services, service.requirements.isNegative = false)
    (service : String) : (input.needs service).NotNegative := by
  unfold needs
  cases found : input.services.find? fun listed => listed.name = service with
  | none =>
      have nothing : (0 : Resources Rat).isNegative = false := by decide
      exact nothing
  | some listed => exact requirements listed (List.mem_of_find?_eq_some found)

end RoundingInput

/-- A surplus that has only moved towards zero is kept where it is positive, and does not become
positive where it is not. -/
theorem Node.usage_of_surplus {needs : String → Resources Rat} (n : Node Rat) {d : Dimension}
    {start : Rat} (above : start ≤ n.surplus needs d) (below : n.surplus needs d ≤ max 0 start) :
    (0 ≤ start → n.usage.get d = n.booked needs d + start) ∧
    (start ≤ 0 → n.booked needs d + start ≤ n.usage.get d ∧ n.usage.get d ≤ n.booked needs d) := by
  constructor
  · intro positive
    have same := le_antisymm (below.trans_eq (max_eq_right positive)) above
    rw [← same, surplus, add_sub_cancel]
  · intro negative
    have upper := below.trans_eq (max_eq_left negative)
    exact ⟨le_sub_iff_add_le'.mp above, sub_nonpos.mp upper⟩

/-! ## One rounding -/

/-- What rounding puts on empty nodes is all that they have in use. -/
theorem accounted_after_rounding {plan : RoundingPlan Rat σ δ} {input : RoundingInput Rat}
    {s s' : RoundingState Rat σ} {placement : Placement Rat}
    (distinct : s.topology.nodeNames.Nodup)
    (empty : ∀ n ∈ s.topology.nodes, n.usage = 0 ∧ n.hosted = [])
    (requirements : ∀ service ∈ input.services, service.requirements.isNegative = false)
    (returned : roundFractions plan input s = (s', .ok placement)) :
    s'.topology.EveryNode (Node.Accounted input.needs) := by
  have once := (rounding_rehosts plan input s s' placement distinct returned).1
  have every : s.topology.EveryNode (Node.Accounted input.needs) := fun n stored =>
    Node.accounted_of_empty (empty n stored).1 (empty n stored).2
  have kept := (Node.accounted_kept (RoundingInput.needs_not_negative requirements)).round plan
    input (fun service listed => RoundingInput.needs_of_listed once listed) every
  rwa [returned] at kept

/-- Rounding leaves the surplus of a node as it is, or takes it nearer to zero. -/
theorem surplus_after_rounding {plan : RoundingPlan Rat σ δ} {input : RoundingInput Rat}
    {s s' : RoundingState Rat σ} {placement : Placement Rat}
    (distinct : s.topology.nodeNames.Nodup) (once : ∀ n ∈ s.topology.nodes, n.hosted.Nodup)
    (requirements : ∀ service ∈ input.services, service.requirements.isNegative = false)
    (returned : roundFractions plan input s = (s', .ok placement)) :
    ∀ n' ∈ s'.topology.nodes, n'.hosted.Nodup ∧ ∃ n ∈ s.topology.nodes, n.name = n'.name ∧
      ∀ d, n.surplus input.needs d ≤ n'.surplus input.needs d ∧
        n'.surplus input.needs d ≤ max 0 (n.surplus input.needs d) := by
  intro n' stored'
  obtain ⟨listedOnce, rehosted⟩ := rounding_rehosts plan input s s' placement distinct returned
  -- the surplus that the node of a name starts from
  let start : String → Dimension → Rat := fun name d =>
    ((s.topology.node? name).map (·.surplus input.needs d)).getD 0
  have starts : ∀ n ∈ s.topology.nodes, ∀ d, start n.name d = n.surplus input.needs d := by
    intro n stored d
    dsimp only [start]
    rw [Topology.node_of_member distinct stored]
    rfl
  have every : s.topology.EveryNode (Node.SurplusWithin input.needs start) := by
    intro n stored
    refine ⟨once n stored, fun d => ?_, fun d => ?_⟩ <;> rw [starts n stored]
    exact le_max_right _ _
  have kept := (Node.surplus_kept (RoundingInput.needs_not_negative requirements) start).round plan
    input (fun service listed => RoundingInput.needs_of_listed listedOnce listed) every
  rw [returned] at kept
  have within := kept n' stored'
  have named : n'.name ∈ s.topology.nodeNames := rehosted.names ▸ List.mem_map_of_mem stored'
  obtain ⟨n, stored, sameName⟩ := List.mem_map.mp named
  refine ⟨within.once, n, stored, sameName, fun d => ?_⟩
  rw [← starts n stored d, sameName]
  exact ⟨within.above d, within.below d⟩

theorem Placement.load_nonneg (placement : Placement Rat) {demands : List (Demand Rat)}
    (bandwidths : ∀ demand ∈ demands, 0 ≤ demand.bandwidth) (link : String) :
    0 ≤ placement.load demands link := by
  apply List.sum_nonneg
  intro bandwidth member
  obtain ⟨entry, routed, rfl⟩ := List.mem_map.mp member
  exact bandwidths entry.1 (List.fst_mem_of_mem_zipIdx (List.mem_of_mem_filter routed))

theorem links_after_rounding {plan : RoundingPlan Rat σ δ} {input : RoundingInput Rat}
    {s s' : RoundingState Rat σ} {placement : Placement Rat} (wellFormed : s.topology.WellFormed)
    (nonneg : ∀ l ∈ s.topology.links, 0 ≤ l.used)
    (bandwidths : ∀ demand ∈ input.demands, 0 ≤ demand.bandwidth)
    (returned : roundFractions plan input s = (s', .ok placement)) :
    s'.topology.links = s.topology.links.map fun l =>
      { l with used := l.used + placement.load input.demands l.id } := by
  obtain ⟨-, placed, assignments, routing, placing, routed, rfl⟩ := round_returned returned
  obtain ⟨layout, keepsRest⟩ := place_all_keeps_rest plan wellFormed placing
  have sameLinks : placed.topology.links = s.topology.links := by rw [keepsRest]
  obtain ⟨outcomes, run, rfl⟩ := Topology.route_from_run routed
  have conserved := Topology.run_conserves run (wellFormed.of_same_layout layout)
    (sameLinks ▸ nonneg) bandwidths 0
  rw [conserved, sameLinks]
  rfl

/-! ## Two roundings -/

theorem hosted_after_rounding {plan : RoundingPlan Rat σ δ} {input : RoundingInput Rat}
    {s s' : RoundingState Rat σ} {placement : Placement Rat}
    (distinct : s.topology.nodeNames.Nodup)
    (returned : roundFractions plan input s = (s', .ok placement)) {node service : String}
    (hosted : s'.topology.Hosts node service) :
    service ∈ input.services.map (·.name) ∨ s.topology.Hosts node service := by
  obtain ⟨-, rehosted⟩ := rounding_rehosts plan input s s' placement distinct returned
  rcases (rehosted.hosts node service).mp hosted with ⟨-, before⟩ | assigned
  · exact Or.inr before
  · have listed : service ∈ placement.assignments.entries.map (·.1) :=
      List.mem_map_of_mem (f := (·.1)) assigned
    exact Or.inl (rehosted.covered ▸ listed)

/-- What two roundings in a row leave on unused nodes and links. Where the services on a node needed
more before, the excess stays in use beside what is hosted now; where they needed less, no more than
the difference is missing. Each link carries the demands of both roundings. -/
theorem second_rounding_keeps_excess {σ' δ' : Type} (t : Topology Rat) (wellFormed : t.WellFormed)
    (emptyNodes : ∀ n ∈ t.nodes, n.usage = 0 ∧ n.hosted = [])
    (unusedLinks : ∀ l ∈ t.links, l.used = 0)
    (plan : RoundingPlan Rat σ δ) (input : RoundingInput Rat) (g : σ) (s : RoundingState Rat σ)
    (placement : Placement Rat) (returned : roundFractions plan input ⟨t, g⟩ = (s, .ok placement))
    (plan' : RoundingPlan Rat σ' δ') (input' : RoundingInput Rat) (g' : σ')
    (s' : RoundingState Rat σ') (placement' : Placement Rat)
    (returned' : roundFractions plan' input' ⟨s.topology, g'⟩ = (s', .ok placement'))
    (relisted : ∀ service ∈ input.services, service.name ∈ input'.services.map (·.name))
    (requirements : ∀ service ∈ input.services ++ input'.services,
      service.requirements.isNegative = false)
    (bandwidths : ∀ demand ∈ input.demands ++ input'.demands, 0 ≤ demand.bandwidth) :
    (∀ n' ∈ s'.topology.nodes,
      (∀ service ∈ n'.hosted, service ∈ input'.services.map (·.name)) ∧
      ∃ n ∈ s.topology.nodes, n.name = n'.name ∧ ∀ d,
        (0 ≤ n.excess input.needs input'.needs d →
          n'.usage.get d = n'.booked input'.needs d + n.excess input.needs input'.needs d) ∧
        (n.excess input.needs input'.needs d ≤ 0 →
          n'.booked input'.needs d + n.excess input.needs input'.needs d ≤ n'.usage.get d ∧
          n'.usage.get d ≤ n'.booked input'.needs d)) ∧
    s'.topology.links = t.links.map fun l =>
      { l with used :=
          placement.load input.demands l.id + placement'.load input'.demands l.id } := by
  obtain ⟨needed, needed'⟩ := List.forall_mem_append.mp requirements
  obtain ⟨widths, widths'⟩ := List.forall_mem_append.mp bandwidths
  have distinct := wellFormed.names_distinct
  have wellFormedBetween := rounding_keeps_well_formed wellFormed returned
  have distinctBetween := wellFormedBetween.names_distinct
  have accounted := accounted_after_rounding distinct emptyNodes needed returned
  constructor
  · intro n' stored'
    obtain ⟨-, n, stored, named, within⟩ := surplus_after_rounding (s := ⟨s.topology, g'⟩)
      distinctBetween (fun n stored => (accounted n stored).once) needed' returned' n' stored'
    constructor
    · intro service hosted
      have onNode : s'.topology.Hosts n'.name service :=
        ⟨n', stored', rfl, List.contains_iff_mem.mpr hosted⟩
      rcases hosted_after_rounding (s := ⟨s.topology, g'⟩) distinctBetween returned' onNode with
        listed | before
      · exact listed
      · rcases hosted_after_rounding distinct returned before with listed | atStart
        · obtain ⟨service, member, rfl⟩ := List.mem_map.mp listed
          exact relisted service member
        · obtain ⟨m, origin, -, hostedAtStart⟩ := atStart
          rw [Node.hosts, (emptyNodes m origin).2] at hostedAtStart
          cases hostedAtStart
    · refine ⟨n, stored, named, fun d => ?_⟩
      have excess : n.surplus input'.needs d = n.excess input.needs input'.needs d := by
        unfold Node.surplus Node.excess
        rw [(accounted n stored).usage d]
      obtain ⟨above, below⟩ := excess ▸ within d
      exact n'.usage_of_surplus above below
  · have links := links_after_rounding wellFormed (fun l stored => (unusedLinks l stored).ge) widths
      returned
    have nonneg : ∀ l ∈ s.topology.links, 0 ≤ l.used := by
      intro l stored
      rw [links] at stored
      obtain ⟨origin, atStart, rfl⟩ := List.mem_map.mp stored
      have load := placement.load_nonneg widths origin.id
      exact add_nonneg (unusedLinks origin atStart).ge load
    have links' := links_after_rounding (s := ⟨s.topology, g'⟩) wellFormedBetween nonneg widths'
      returned'
    dsimp only at links links'
    rw [links', links, List.map_map]
    apply List.map_congr_left
    intro l stored
    have used : l.used + placement.load input.demands l.id = placement.load input.demands l.id := by
      rw [unusedLinks l stored]
      exact zero_add _
    rw [Function.comp_apply]
    dsimp only
    rw [used]

/-! ## A service that needs less the second time -/

def joinedPair (a b : Node Rat) (used : Rat) : Topology Rat where
  nodes := [a, b]
  links := [⟨"ab", "a", "b", 10, 1, used⟩]
  canonical := [("a", "a"), ("b", "b")]
  tieTolerance := 0

def pairInput (need : Rat) : RoundingInput Rat where
  fractions := ⟨2, [[1, 0], [0, 1]]⟩
  services := [⟨"s", need, need, 1, 0, 0, 0⟩, ⟨"t", 1, 1, 1, 0, 0, 0⟩]
  demands := [⟨"s", "t", 4⟩]
  weight := "latency"

def unusedPair : Topology Rat :=
  joinedPair (Node.fresh "a" ⟨5, 5, 0, 0⟩) (Node.fresh "b" ⟨10, 10, 0, 0⟩) 0

def usedPair (used : Rat) : Topology Rat :=
  joinedPair ⟨"a", ⟨5, 5, 0, 0⟩, ⟨5, 5, 0, 0⟩, ["s"]⟩ ⟨"b", ⟨10, 10, 0, 0⟩, ⟨1, 1, 0, 0⟩, ["t"]⟩
    used

def pairPlacement : Placement Rat :=
  ⟨⟨[("s", some "a"), ("t", some "b")]⟩, ⟨[(0, ["ab"])]⟩, [], []⟩

theorem second_pair_rounding_keeps_excess :
    (∀ n' ∈ (usedPair 8).nodes,
      (∀ service ∈ n'.hosted, service ∈ (pairInput 3).services.map (·.name)) ∧
      ∃ n ∈ (usedPair 4).nodes, n.name = n'.name ∧ ∀ d,
        (0 ≤ n.excess (pairInput 5).needs (pairInput 3).needs d →
          n'.usage.get d = n'.booked (pairInput 3).needs d +
            n.excess (pairInput 5).needs (pairInput 3).needs d) ∧
        (n.excess (pairInput 5).needs (pairInput 3).needs d ≤ 0 →
          n'.booked (pairInput 3).needs d + n.excess (pairInput 5).needs (pairInput 3).needs d ≤
            n'.usage.get d ∧
          n'.usage.get d ≤ n'.booked (pairInput 3).needs d)) ∧
    (usedPair 8).links = unusedPair.links.map fun l =>
      { l with used := pairPlacement.load (pairInput 5).demands l.id +
        pairPlacement.load (pairInput 3).demands l.id } := by
  have wellFormed : unusedPair.WellFormed := ⟨by decide, by decide, by decide, by decide⟩
  exact second_rounding_keeps_excess unusedPair wellFormed (by decide) (by decide)
    ⟨firstChoice, ["a", "b"], 0⟩ (pairInput 5) () ⟨usedPair 4, ()⟩ pairPlacement (by cbv)
    ⟨firstChoice, ["a", "b"], 0⟩ (pairInput 3) () ⟨usedPair 8, ()⟩ pairPlacement (by cbv)
    (by decide) (by decide) (by decide)

/-- After the second rounding a node has more in use than what it hosts needs, and a link more than
what the second rounding routed over it. -/
theorem second_pair_rounding_leaves_residue :
    roundFractions ⟨firstChoice, ["a", "b"], 0⟩ (pairInput 5) ⟨unusedPair, ()⟩ =
      (⟨usedPair 4, ()⟩, .ok pairPlacement) ∧
    roundFractions ⟨firstChoice, ["a", "b"], 0⟩ (pairInput 3) ⟨usedPair 4, ()⟩ =
      (⟨usedPair 8, ()⟩, .ok pairPlacement) ∧
    (∃ n ∈ (usedPair 8).nodes, ∃ d, n.booked (pairInput 3).needs d < n.usage.get d) ∧
    ∃ l ∈ (usedPair 8).links, pairPlacement.load (pairInput 3).demands l.id < l.used := by
  refine ⟨by cbv, by cbv, ?_, ?_⟩
  · exact ⟨_, List.mem_cons_self, .storage, by cbv⟩
  · exact ⟨_, List.mem_cons_self, by cbv⟩

end EdgePlacement
