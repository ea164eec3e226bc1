import EdgePlacement.Planner
import EdgePlacement.Proofs.Network.Layout

/-!
# Placing services

A service is only ever put on one of the nodes that are listed, in the state in which it is met
there. Placing, rounding and planning are therefore sequences of the changes that single operations
make.
-/

namespace EdgePlacement

open Relation

set_option autoImplicit false

variable {α σ δ : Type} [Quantity α]

/-! ## Candidates -/

theorem mem_by_load_iff (nodes : List (Node α)) (n : Node α) :
    n ∈ Node.byLoad nodes ↔ n ∈ nodes := by
  unfold Node.byLoad
  exact List.mem_mergeSort

theorem mem_by_capacity_iff (nodes : List (Node α)) (n : Node α) :
    n ∈ Node.byCapacity nodes ↔ n ∈ nodes := by
  unfold Node.byCapacity
  exact List.mem_mergeSort

theorem others_are_nodes (weights : List α) (nodes : List (Node α)) (sampled : Nat) (n : Node α)
    (member : n ∈ Weighted.others weights nodes sampled) : n ∈ nodes := by
  unfold Weighted.others at member
  obtain ⟨weighted, sorted, rfl⟩ := List.mem_map.mp member
  rw [List.mem_mergeSort, List.mem_filterMap] at sorted
  obtain ⟨⟨⟨weight, node⟩, position⟩, indexed, kept⟩ := sorted
  have paired : (weight, node) ∈ weights.zip nodes := List.fst_mem_of_mem_zipIdx indexed
  dsimp only at kept
  split at kept
  · cases kept
    exact (List.of_mem_zip paired).2
  · cases kept

theorem complete_order_in_nodes (first nodes : List (Node α)) (listed : ∀ n ∈ first, n ∈ nodes)
    (n : Node α) (member : n ∈ completeOrder first nodes) : n ∈ nodes := by
  rcases List.mem_append.mp member with early | late
  · exact listed n early
  · exact (mem_by_capacity_iff nodes n).mp (List.mem_of_mem_filter late)

theorem complete_order_covers (first nodes : List (Node α)) (listed : ∀ m ∈ first, m ∈ nodes)
    (unique : ∀ m ∈ nodes, ∀ n ∈ nodes, m.name = n.name → m = n) {n : Node α}
    (member : n ∈ nodes) : n ∈ completeOrder first nodes := by
  unfold completeOrder
  by_cases seen : n.name ∈ first.map (·.name)
  · obtain ⟨m, early, named⟩ := List.mem_map.mp seen
    have same := unique m (listed m early) n member named
    exact List.mem_append_left _ (same ▸ early)
  · apply List.mem_append_right
    exact List.mem_filter.mpr ⟨(mem_by_capacity_iff nodes n).mpr member, by simp [seen]⟩

theorem Node.deploy_keeps_name {n n' : Node α} {service : Service α}
    (fits : n.deploy? service = some n') : n'.name = n.name := by
  have kept : n'.reset.name = n.reset.name := by rw [Node.deploy_keeps_layout fits]
  exact kept

theorem Node.deploy_refused {n : Node α} {service : Service α}
    (refused : n.deploy? service = none) :
    n.canHost service.requirements = false := by
  unfold Node.deploy? Node.reserve? at refused
  split_ifs at refused with hosted fits
  · cases refused
  · exact Bool.eq_false_iff.mpr fits

variable [Summation α]

theorem candidates_are_nodes (sampler : Sampler α σ δ) (weights : List α) (nodes : List (Node α))
    (tolerance : α) (g g' : σ) (candidates : List (Node α))
    (order : candidateOrder sampler weights nodes tolerance g = (.ok candidates, g')) :
    ∀ n ∈ candidates, n ∈ nodes := by
  unfold candidateOrder at order
  dsimp only at order
  split_ifs at order with massless admitted
  · cases order
    exact complete_order_in_nodes _ nodes fun n => (mem_by_load_iff nodes n).mp
  · cases order
    refine complete_order_in_nodes _ nodes fun n early => ?_
    rcases List.mem_append.mp early with sampled | other
    · exact List.mem_of_getElem? (Option.mem_toList.mp sampled)
    · exact others_are_nodes _ nodes _ n other
  · cases order

theorem candidates_cover {sampler : Sampler α σ δ} {weights : List α} {nodes : List (Node α)}
    {tolerance : α} {g g' : σ} {candidates : List (Node α)}
    (order : candidateOrder sampler weights nodes tolerance g = (.ok candidates, g'))
    (unique : ∀ m ∈ nodes, ∀ n ∈ nodes, m.name = n.name → m = n) {n : Node α}
    (member : n ∈ nodes) : n ∈ candidates := by
  unfold candidateOrder at order
  dsimp only at order
  split_ifs at order with massless admitted
  · cases order
    exact complete_order_covers _ nodes (fun m => (mem_by_load_iff nodes m).mp) unique member
  · cases order
    refine complete_order_covers _ nodes (fun m early => ?_) unique member
    rcases List.mem_append.mp early with sampled | other
    · exact List.mem_of_getElem? (Option.mem_toList.mp sampled)
    · exact others_are_nodes _ nodes _ m other
  · cases order

/-! ## One service -/

namespace RoundingPlan

omit [Quantity α] [Summation α] in
theorem listed_nodes_are_nodes (plan : RoundingPlan α σ δ) (t : Topology α) (n : Node α)
    (listed : n ∈ plan.nodes t) : n ∈ t.nodes ∧ n.name ∈ plan.nodeNames := by
  obtain ⟨name, member, found⟩ := List.mem_filterMap.mp listed
  obtain ⟨stored, named⟩ := Topology.node_found found
  exact ⟨stored, named ▸ member⟩

omit [Quantity α] [Summation α] in
theorem listed_nodes_cover (plan : RoundingPlan α σ δ) {t : Topology α}
    (distinct : t.nodeNames.Nodup) {n : Node α} (member : n ∈ t.nodes)
    (named : n.name ∈ plan.nodeNames) : n ∈ plan.nodes t :=
  List.mem_filterMap.mpr ⟨n.name, named, Topology.node_of_member distinct member⟩

omit [Quantity α] [Summation α] in
theorem listed_nodes_unique (plan : RoundingPlan α σ δ) {t : Topology α}
    (distinct : t.nodeNames.Nodup) :
    ∀ m ∈ plan.nodes t, ∀ n ∈ plan.nodes t, m.name = n.name → m = n := by
  intro m listed n listed' named
  have stored := (plan.listed_nodes_are_nodes t m listed).1
  have stored' := (plan.listed_nodes_are_nodes t n listed').1
  exact List.inj_on_of_nodup_map distinct stored stored' named

/-- What placing a service can come to: a refusal of the weights, the first candidate with room for
it, or no candidate at all. Its former hosts have released it in any case. -/
inductive Outcome (plan : RoundingPlan α σ δ) (service : Service α) (weights : List α)
    (s : RoundingState α σ) : RoundingState α σ × Except (Fault α) (Option String) → Prop where
  | refused (fault : Fault α) (g : σ)
      (order : candidateOrder plan.sampler weights
        (plan.nodes (s.topology.undeployEverywhere service)) plan.tolerance s.generator =
          (.error fault, g)) :
      Outcome plan service weights s
        (⟨s.topology.undeployEverywhere service, g⟩, .error fault)
  | placed (before after : List (Node α)) (n n' : Node α) (g : σ)
      (order : candidateOrder plan.sampler weights
        (plan.nodes (s.topology.undeployEverywhere service)) plan.tolerance s.generator =
          (.ok (before ++ n :: after), g))
      (passed : ∀ m ∈ before, m.deploy? service = none) (fits : n.deploy? service = some n') :
      Outcome plan service weights s
        (⟨(s.topology.undeployEverywhere service).updateNode n'.name fun _ => n', g⟩,
          .ok (some n'.name))
  | unplaced (candidates : List (Node α)) (g : σ)
      (order : candidateOrder plan.sampler weights
        (plan.nodes (s.topology.undeployEverywhere service)) plan.tolerance s.generator =
          (.ok candidates, g))
      (full : ∀ m ∈ candidates, m.deploy? service = none) :
      Outcome plan service weights s (⟨s.topology.undeployEverywhere service, g⟩, .ok none)

theorem place_outcome (plan : RoundingPlan α σ δ) (service : Service α) (weights : List α)
    (s : RoundingState α σ) :
    Outcome plan service weights s (plan.place service weights s) := by
  unfold place
  dsimp only
  split
  · rename_i fault g order
    exact .refused fault g order
  · rename_i candidates g order
    split
    · rename_i n' found
      obtain ⟨before, n, after, rfl, fits, passed⟩ := List.findSome?_eq_some_iff.mp found
      exact .placed before after n n' g order passed fits
    · rename_i none
      exact .unplaced candidates g order (List.findSome?_eq_none_iff.mp none)

theorem place_all_cons {plan : RoundingPlan α σ δ} {service : Service α} {weights : List α}
    {rest : List (Service α × List α)} {s s' : RoundingState α σ}
    {assignments : List (String × Option String)}
    (placed : plan.placeAll ((service, weights) :: rest) s = (s', .ok assignments)) :
    ∃ between host later, plan.place service weights s = (between, .ok host) ∧
      plan.placeAll rest between = (s', .ok later) ∧
      assignments = (service.name, host) :: later := by
  unfold placeAll at placed
  split at placed
  · cases placed
  · rename_i between host first
    dsimp only at placed
    generalize afterwards : plan.placeAll rest between = result at placed
    obtain ⟨final, outcome⟩ := result
    cases outcome with
    | error fault => cases placed
    | ok later =>
        cases placed
        exact ⟨between, host, later, first, afterwards, rfl⟩

end RoundingPlan

/-! ## Sequences of changes -/

variable {request : Resources α → Prop} {bandwidth : α → Prop}

omit [Summation α] in
theorem node_changes_are_changes {t t' : Topology α}
    (changes : ReflTransGen (NodeChange request) t t') :
    ReflTransGen (Change request bandwidth) t t' :=
  changes.lift id fun _ _ => Change.node

theorem place_changes (plan : RoundingPlan α σ δ) (service : Service α) (weights : List α)
    (s : RoundingState α σ) (admitted : request service.requirements) :
    ReflTransGen (NodeChange request) s.topology (plan.place service weights s).1.topology := by
  have released : NodeChange request s.topology (s.topology.undeployEverywhere service) :=
    .undeployed s.topology service admitted
  have outcome := plan.place_outcome service weights s
  generalize plan.place service weights s = result at outcome ⊢
  cases outcome with
  | refused => exact .single released
  | unplaced => exact .single released
  | placed before after n n' g order passed fits =>
      have listed := candidates_are_nodes _ _ _ _ _ _ _ order n (by simp)
      obtain ⟨stored, -⟩ := plan.listed_nodes_are_nodes _ n listed
      have named := Node.deploy_keeps_name fits
      refine .tail (.single released) (.named _ n'.name _ fun _ _ _ => ?_)
      exact ⟨n, stored, named.symm, .deploy n n' service admitted fits⟩

theorem place_all_changes (plan : RoundingPlan α σ δ) (rows : List (Service α × List α))
    (s : RoundingState α σ) (admitted : ∀ row ∈ rows, request row.1.requirements) :
    ReflTransGen (NodeChange request) s.topology (plan.placeAll rows s).1.topology := by
  induction rows generalizing s with
  | nil => exact .refl
  | cons row rest ih =>
      obtain ⟨service, weights⟩ := row
      have first := place_changes plan service weights s (admitted _ List.mem_cons_self)
      unfold RoundingPlan.placeAll
      split <;> rename_i placed <;> rw [placed] at first
      · exact first
      · exact first.trans (ih _ fun row member => admitted row (List.mem_cons_of_mem _ member))

theorem place_all_keeps_rest (plan : RoundingPlan α σ δ) {rows : List (Service α × List α)}
    {s placed : RoundingState α σ} {assignments : List (String × Option String)}
    (wellFormed : s.topology.WellFormed)
    (placing : plan.placeAll rows s = (placed, .ok assignments)) :
    placed.topology.resetUsage = s.topology.resetUsage ∧
      placed.topology = { s.topology with nodes := placed.topology.nodes } := by
  have changes : ReflTransGen (NodeChange fun _ => True) s.topology
      (plan.placeAll rows s).1.topology :=
    place_all_changes plan rows s fun _ _ => trivial
  rw [placing] at changes
  have made : ReflTransGen (Change (fun _ => True) fun _ => True) s.topology placed.topology :=
    node_changes_are_changes changes
  exact ⟨Topology.changes_keep_layout wellFormed made, Topology.node_changes_keep_rest changes⟩

variable [PathChoice α]

theorem round_changes (plan : RoundingPlan α σ δ) (input : RoundingInput α)
    (s : RoundingState α σ)
    (services : ∀ service ∈ input.services, request service.requirements)
    (demands : ∀ demand ∈ input.demands, bandwidth demand.bandwidth) :
    ReflTransGen (Change request bandwidth) s.topology
      (roundFractions plan input s).1.topology := by
  have placing : ReflTransGen (NodeChange request) s.topology
      (plan.placeAll (input.services.zip input.fractions.rows) s).1.topology :=
    place_all_changes plan (input.services.zip input.fractions.rows) s
      fun row member => services row.1 (List.of_mem_zip member).1
  unfold roundFractions
  split
  · exact .refl
  · split <;> rename_i placed <;> rw [placed] at placing
    · exact node_changes_are_changes placing
    · rename_i placedState assignments
      have routing : ReflTransGen (LinkChange bandwidth) placedState.topology
          (placedState.topology.routeDemands input.demands ⟨assignments⟩ input.weight).1 :=
        Topology.route_demands_changes placedState.topology input.demands ⟨assignments⟩
          input.weight demands
      exact (node_changes_are_changes placing).trans (link_changes_are_changes routing)

theorem rounding_keeps_well_formed {plan : RoundingPlan α σ δ} {input : RoundingInput α}
    {s s' : RoundingState α σ} {outcome : Except (Fault α) (Placement α)}
    (wellFormed : s.topology.WellFormed) (rounded : roundFractions plan input s = (s', outcome)) :
    s'.topology.WellFormed := by
  have changes : ReflTransGen (Change (fun _ => True) fun _ => True) s.topology
      (roundFractions plan input s).1.topology :=
    round_changes plan input s (fun _ _ => trivial) fun _ _ => trivial
  rw [rounded] at changes
  exact wellFormed.of_same_layout (Topology.changes_keep_layout wellFormed changes)

/-- A rounding that returns has placed all services and then routed all demands. -/
theorem round_returned {plan : RoundingPlan α σ δ} {input : RoundingInput α}
    {s s' : RoundingState α σ} {placement : Placement α}
    (returned : roundFractions plan input s = (s', .ok placement)) :
    input.fault? plan.nodeNames s.topology = none ∧ ∃ placed assignments routing,
      plan.placeAll (input.services.zip input.fractions.rows) s = (placed, .ok assignments) ∧
      placed.topology.routeDemands input.demands ⟨assignments⟩ input.weight =
        (s'.topology, .ok routing) ∧
      placement = Placement.ofParts assignments routing := by
  unfold roundFractions at returned
  split at returned
  · cases returned
  · rename_i accepted
    refine ⟨accepted, ?_⟩
    split at returned
    · cases returned
    · rename_i placed assignments placing
      dsimp only at returned
      generalize routed : placed.topology.routeDemands input.demands ⟨assignments⟩ input.weight =
        result at returned
      obtain ⟨t, outcome⟩ := result
      cases outcome with
      | error fault => cases returned
      | ok routing =>
          cases returned
          exact ⟨placed, assignments, routing, placing, routed, rfl⟩

theorem run_changes (planner : Planner α σ δ) (t : Topology α) (workload : Workload α)
    (settings : Settings α) (skippedRecords : Nat)
    (services : ∀ service ∈ workload.services, request service.requirements)
    (demands : ∀ demand ∈ workload.demands, bandwidth demand.bandwidth) :
    ReflTransGen (Change request bandwidth) t
      (planner.run t workload settings skippedRecords).1 := by
  unfold Planner.run
  split
  · exact .refl
  · rename_i relaxation solution _
    have start : ReflTransGen (Change request bandwidth) t
        (if settings.resetUsage then t.resetUsage else t) := by
      split_ifs
      · exact .single (.reset t)
      · exact .refl
    dsimp only
    generalize (if settings.resetUsage then t.resetUsage else t) = started at start ⊢
    split
    · exact start
    · rename_i g _
      have rounding := round_changes
        ⟨planner.sampler, relaxation.nodeNames, settings.tolerance⟩
        ⟨solution.fractions, workload.services, workload.demands, settings.weight.name⟩
        ⟨started, g⟩ services demands
      split <;> rename_i rounded <;> rw [rounded] at rounding <;> exact start.trans rounding

/-! ## Runs that return -/

theorem bind_returned {ε β γ : Type} {first : Except ε β} {next : β → Except ε γ} {result : γ}
    (returned : (first >>= next) = .ok result) :
    ∃ between, first = .ok between ∧ next between = .ok result := by
  cases first with
  | error fault => cases returned
  | ok between => exact ⟨between, rfl, returned⟩

omit [PathChoice α] in
theorem relaxation_node_names {planner : Planner α σ δ} {t : Topology α}
    {services : List (Service α)} {settings : Settings α} {relaxation : Relaxation α}
    {solution : RelaxationSolution α}
    (relaxed : planner.relax t services settings = .ok (relaxation, solution)) :
    relaxation.nodeNames = t.nodeNames := by
  unfold Planner.relax at relaxed
  split_ifs at relaxed
  obtain ⟨built, ofEntities, later⟩ := bind_returned relaxed
  obtain ⟨solved, -, same⟩ := bind_returned later
  cases same
  unfold Relaxation.ofEntities at ofEntities
  split_ifs at ofEntities
  cases ofEntities
  rfl

/-- A run that returns has rounded the solution of the relaxation on all nodes, in the state that
its settings make it start from. -/
theorem run_returned {planner : Planner α σ δ} {t t' : Topology α} {workload : Workload α}
    {settings : Settings α} {skippedRecords : Nat} {plan : Plan α}
    (returned : planner.run t workload settings skippedRecords = (t', .ok plan)) :
    ∃ (fractions : Fractions α) (g : σ) (s' : RoundingState α σ),
      roundFractions ⟨planner.sampler, t.nodeNames, settings.tolerance⟩
        ⟨fractions, workload.services, workload.demands, settings.weight.name⟩
        ⟨if settings.resetUsage then t.resetUsage else t, g⟩ = (s', .ok plan.placement) ∧
      t' = s'.topology := by
  unfold Planner.run at returned
  split at returned
  · cases returned
  · rename_i relaxation solution relaxed
    dsimp only at returned
    split at returned
    · cases returned
    · rename_i g _
      split at returned
      · cases returned
      · rename_i s' placement rounded
        cases returned
        rw [relaxation_node_names relaxed] at rounded
        exact ⟨solution.fractions, g, s', rounded, rfl⟩

end EdgePlacement
