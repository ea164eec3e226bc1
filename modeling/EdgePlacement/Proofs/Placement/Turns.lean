import EdgePlacement.Proofs.Network.Bandwidth
import EdgePlacement.Proofs.NodeInvariants
import EdgePlacement.Proofs.Placement.CandidateOrder

/-!
# Turns

When a service has its turn, the services before it have been placed, and it has been taken off
every node. It goes to the first candidate with room, and that is what its entry among the
assignments says.
-/

namespace EdgePlacement

set_option autoImplicit false

variable {α σ δ : Type} [Quantity α]

theorem Node.room_of_deployed {n n' : Node α} {service : Service α}
    (unhosted : n.hosts service.name = false) (fits : n.deploy? service = some n') :
    n.canHost service.requirements = true := by
  rcases Node.deploy_cases fits with ⟨hosted, -⟩ | ⟨-, room, -⟩
  · rw [unhosted] at hosted
    cases hosted
  · exact room

theorem Node.KeptByServices.of_names {known : Service α → Prop} {holds : Node α → Prop}
    (kept : Node.KeptByServices known holds) (named : String → Prop) :
    Node.KeptByServices known fun n => named n.name → holds n where
  deploy n n' service familiar held fits listed :=
    kept.deploy n n' service familiar (held (Node.deploy_keeps_name fits ▸ listed)) fits
  undeploy n service familiar held listed :=
    kept.undeploy n service familiar (held (n.undeploy_keeps_name service ▸ listed))

namespace RoundingPlan

variable [Summation α] {plan : RoundingPlan α σ δ}

theorem place_first_with_room {service : Service α} {weights : List α} {s : RoundingState α σ}
    {order : List (Node α)} {g : σ}
    (ordered : candidateOrder plan.sampler weights
      (plan.nodes (s.topology.undeployEverywhere service)) plan.tolerance s.generator =
        (.ok order, g)) :
    (plan.place service weights s).2 =
      .ok ((order.find? fun n => n.canHost service.requirements).map (·.name)) := by
  have outcome := plan.place_outcome service weights s
  generalize plan.place service weights s = result at outcome ⊢
  cases outcome with
  | refused fault g' order' =>
      rw [ordered] at order'
      cases order'
  | placed before after n n' g' order' passed fits =>
      rw [ordered] at order'
      cases order'
      have candidate := candidates_are_nodes _ _ _ _ _ _ _ ordered n (by simp)
      obtain ⟨stored, -⟩ := plan.listed_nodes_are_nodes _ n candidate
      have unhosted : n.hosts service.name = false := by
        rw [← Bool.not_eq_true]
        intro hosted
        exact ((s.topology.undeploy_everywhere_hosts service n.name service.name).mp
          ⟨n, stored, rfl, hosted⟩).1 rfl
      have first : (before ++ n :: after).find? (fun n => n.canHost service.requirements) =
          some n := by
        refine List.find?_eq_some_iff_append.mpr
          ⟨Node.room_of_deployed unhosted fits, before, after, rfl, fun m earlier => ?_⟩
        rw [Node.deploy_refused (passed m earlier)]
        rfl
      rw [first, Option.map_some, Node.deploy_keeps_name fits]
  | unplaced candidates g' order' full =>
      rw [ordered] at order'
      cases order'
      have none : order.find? (fun n => n.canHost service.requirements) = none := by
        rw [List.find?_eq_none]
        exact fun m member => Bool.eq_false_iff.mp (Node.deploy_refused (full m member))
      rw [none]
      rfl

theorem place_node_names (plan : RoundingPlan α σ δ) (service : Service α) (weights : List α)
    (s : RoundingState α σ) :
    (plan.place service weights s).1.topology.nodeNames = s.topology.nodeNames := by
  have released := s.topology.undeploy_everywhere_node_names service
  have outcome := plan.place_outcome service weights s
  generalize plan.place service weights s = result at outcome ⊢
  cases outcome with
  | refused => exact released
  | placed before after n n' g order passed fits =>
      exact (Topology.update_node_names _ n').trans released
  | unplaced => exact released

theorem place_all_node_names (plan : RoundingPlan α σ δ) (rows : List (Service α × List α))
    (s : RoundingState α σ) :
    (plan.placeAll rows s).1.topology.nodeNames = s.topology.nodeNames := by
  induction rows generalizing s with
  | nil => rfl
  | cons row rest ih =>
      obtain ⟨service, weights⟩ := row
      have first := plan.place_node_names service weights s
      unfold placeAll
      split <;> rename_i placing <;> rw [placing] at first
      · exact first
      · exact (ih _).trans first

theorem place_all_state {service : Service α} {weights : List α}
    {s between : RoundingState α σ} {host : Option String}
    (placed : plan.place service weights s = (between, .ok host))
    (rest : List (Service α × List α)) :
    (plan.placeAll ((service, weights) :: rest) s).1 = (plan.placeAll rest between).1 := by
  rw [placeAll, placed]

theorem place_all_services {rows : List (Service α × List α)} {s s' : RoundingState α σ}
    {assignments : List (String × Option String)}
    (placed : plan.placeAll rows s = (s', .ok assignments)) :
    assignments.map (·.1) = rows.map (·.1.name) := by
  induction rows generalizing s assignments with
  | nil =>
      cases placed
      rfl
  | cons row rest ih =>
      obtain ⟨service, weights⟩ := row
      obtain ⟨between, host, later, first, afterwards, rfl⟩ := place_all_cons placed
      rw [List.map_cons, List.map_cons, ih afterwards]

/-- A placing that returns can be cut at any point: the services before it are placed as if there
were none after it. -/
theorem place_all_cut {rows more : List (Service α × List α)} {s s' : RoundingState α σ}
    {assignments : List (String × Option String)}
    (placed : plan.placeAll (rows ++ more) s = (s', .ok assignments)) :
    ∃ between earlier later, plan.placeAll rows s = (between, .ok earlier) ∧
      plan.placeAll more between = (s', .ok later) ∧ assignments = earlier ++ later := by
  induction rows generalizing s assignments with
  | nil => exact ⟨s, [], assignments, rfl, placed, rfl⟩
  | cons row rest ih =>
      obtain ⟨service, weights⟩ := row
      obtain ⟨afterFirst, host, others, first, afterwards, rfl⟩ := place_all_cons placed
      obtain ⟨between, earlier, later, before, onward, rfl⟩ := ih afterwards
      refine ⟨between, (service.name, host) :: earlier, later, ?_, onward, rfl⟩
      rw [placeAll, first]
      dsimp only
      rw [before]
      rfl

theorem place_all_turn {rows : List (Service α × List α)} {s s' : RoundingState α σ}
    {assignments : List (String × Option String)}
    (placed : plan.placeAll rows s = (s', .ok assignments)) {position : Nat} {service : Service α}
    {weights : List α} (listed : rows[position]? = some (service, weights)) :
    ∃ host,
      (plan.place service weights (plan.placeAll (rows.take position) s).1).2 = .ok host ∧
        assignments[position]? = some (service.name, host) := by
  induction rows generalizing s assignments position with
  | nil => cases listed
  | cons row rest ih =>
      obtain ⟨service', weights'⟩ := row
      obtain ⟨between, host, later, first, afterwards, rfl⟩ := place_all_cons placed
      cases position with
      | zero =>
          cases listed
          exact ⟨host, congrArg Prod.snd first, rfl⟩
      | succ position =>
          rw [List.take_succ_cons, place_all_state first]
          exact ih afterwards listed

def afterDraw (plan : RoundingPlan α σ δ) (g : σ) (weights : List α) : σ :=
  if Massless plan.tolerance weights then g else (plan.sampler.draw g).2

theorem candidates_generator {weights : List α} {nodes : List (Node α)} (g : σ)
    (count : nodes.length = plan.nodeNames.length) (taken : ¬ plan.SharesRefused weights) :
    ∃ order, candidateOrder plan.sampler weights nodes plan.tolerance g =
      (.ok order, plan.afterDraw g weights) := by
  unfold afterDraw
  split_ifs with massless
  · exact ⟨_, massless_order massless g⟩
  · have admitted : plan.sampler.admits plan.nodeNames.length (sharesOf weights) = true := by
      rw [← Bool.not_eq_false]
      exact fun refused => taken ⟨massless, refused⟩
    exact ⟨_, massive_order massless (count ▸ admitted) g⟩

theorem place_generator (service : Service α) {weights : List α} {s : RoundingState α σ}
    (known : ∀ name ∈ plan.nodeNames, name ∈ s.topology.nodeNames)
    (taken : ¬ plan.SharesRefused weights) :
    (plan.place service weights s).1.generator = plan.afterDraw s.generator weights := by
  have names := s.topology.undeploy_everywhere_node_names service
  obtain ⟨order, ordered⟩ := candidates_generator s.generator
    (plan.listed_node_count (names.symm ▸ known)) taken
  have outcome := plan.place_outcome service weights s
  generalize plan.place service weights s = result at outcome ⊢
  cases outcome with
  | refused fault g order' =>
      rw [ordered] at order'
      cases order'
  | placed before after n n' g order' passed fits =>
      rw [ordered] at order'
      cases order'
      rfl
  | unplaced candidates g order' full =>
      rw [ordered] at order'
      cases order'
      rfl

theorem place_all_returns {rows : List (Service α × List α)} {s : RoundingState α σ}
    (distinct : s.topology.nodeNames.Nodup)
    (known : ∀ name ∈ plan.nodeNames, name ∈ s.topology.nodeNames)
    (taken : ∀ row ∈ rows, ¬ plan.SharesRefused row.2) :
    ∃ s' assignments, plan.placeAll rows s = (s', .ok assignments) := by
  generalize placing : plan.placeAll rows s = result
  obtain ⟨s', answer⟩ := result
  cases answer with
  | ok assignments => exact ⟨s', assignments, rfl⟩
  | error fault =>
      obtain ⟨-, row, listed, refused⟩ := place_all_fault distinct known placing
      exact absurd refused (taken row listed)

/-- Which draws a service gets depends on the weights of the services before it alone. -/
theorem place_all_generator {rows : List (Service α × List α)} {s : RoundingState α σ}
    (distinct : s.topology.nodeNames.Nodup)
    (known : ∀ name ∈ plan.nodeNames, name ∈ s.topology.nodeNames)
    (taken : ∀ row ∈ rows, ¬ plan.SharesRefused row.2) :
    (plan.placeAll rows s).1.generator =
      rows.foldl (fun g row => plan.afterDraw g row.2) s.generator := by
  induction rows generalizing s with
  | nil => rfl
  | cons row rest ih =>
      obtain ⟨service, weights⟩ := row
      have first := place_generator service known (taken _ List.mem_cons_self)
      have names := plan.place_node_names service weights s
      obtain ⟨s', assignments, placed⟩ := place_all_returns distinct known taken
      obtain ⟨between, host, later, placing, -, -⟩ := place_all_cons placed
      rw [placing] at first names
      rw [place_all_state placing, ih (names ▸ distinct) (names ▸ known)
        fun row listed => taken row (List.mem_cons_of_mem _ listed), first]
      rfl

end RoundingPlan

def RoundingPlan.stateAtTurn [Summation α] (plan : RoundingPlan α σ δ) (input : RoundingInput α)
    (s : RoundingState α σ) (position : Nat) : RoundingState α σ :=
  (plan.placeAll ((input.services.zip input.fractions.rows).take position) s).1

omit [Quantity α] in
theorem RoundingInput.accepted_width {input : RoundingInput α} {nodeNames : List String}
    {t : Topology α} (accepted : input.fault? nodeNames t = none) :
    input.fractions.columns = nodeNames.length := by
  unfold RoundingInput.fault? at accepted
  split at accepted
  · cases accepted
  · split_ifs at accepted with shape
    simp only [Fractions.hasShape, Bool.not_eq_true, Bool.not_eq_false', Bool.and_eq_true,
      beq_iff_eq] at shape
    exact shape.2

theorem assigned_once [Summation α] {plan : RoundingPlan α σ δ} {input : RoundingInput α}
    {s placed : RoundingState α σ} {assignments : List (String × Option String)}
    (accepted : input.fault? plan.nodeNames s.topology = none)
    (placing : plan.placeAll (input.services.zip input.fractions.rows) s =
      (placed, .ok assignments)) :
    assignments.map (·.1) = input.services.map (·.name) ∧ (assignments.map (·.1)).Nodup := by
  obtain ⟨sameLength, once, -⟩ := RoundingInput.accepted accepted
  have names := RoundingPlan.place_all_services placing
  rw [RoundingInput.row_names sameLength] at names
  exact ⟨names, names ▸ once⟩

/-- What a rounding keeps of the state that its services were placed in. -/
structure RoundingState.KeepsPlaced (s' placed : RoundingState α σ) : Prop where
  generator : s'.generator = placed.generator
  nodes : s'.topology.nodes = placed.topology.nodes

/-- Routing takes no draw and changes no node. -/
theorem round_keeps_placed [Summation α] [PathChoice α] {plan : RoundingPlan α σ δ}
    {input : RoundingInput α} {s : RoundingState α σ}
    (accepted : input.fault? plan.nodeNames s.topology = none) :
    (roundFractions plan input s).1.KeepsPlaced
      (plan.placeAll (input.services.zip input.fractions.rows) s).1 := by
  unfold roundFractions
  rw [accepted]
  dsimp only
  split <;> rename_i placing <;> rw [placing]
  · exact ⟨rfl, rfl⟩
  · exact ⟨rfl, Topology.route_demands_keep_nodes _ _ _ _⟩

/-- What has been placed is routed when there is nothing to route, or when the paths between the
hosts can be searched for. -/
theorem round_returns {plan : RoundingPlan Rat σ δ} {input : RoundingInput Rat}
    {s placed : RoundingState Rat σ} {assignments : List (String × Option String)}
    (accepted : input.fault? plan.nodeNames s.topology = none)
    (placing : plan.placeAll (input.services.zip input.fractions.rows) s =
      (placed, .ok assignments))
    (assigned : ∀ service node, Assignments.nodeOf? ⟨assignments⟩ service = some node →
      node ∈ placed.topology.nodeNames)
    (searchable : input.demands = [] ∨ ∃ weight : PathWeight, input.weight = weight.name ∧
      (weight = .hops ∨ 0 ≤ placed.topology.tieTolerance)) :
    ∃ s' placement, roundFractions plan input s = (s', .ok placement) := by
  obtain ⟨routing, routed⟩ : ∃ routing, (placed.topology.routeDemands input.demands ⟨assignments⟩
      input.weight).2 = .ok routing := by
    rcases searchable with none | ⟨weight, named, tolerable⟩
    · rw [none]
      exact ⟨_, rfl⟩
    · rw [named]
      exact Topology.route_from_returns _ weight 0 input.demands _ assigned tolerable
  unfold roundFractions
  rw [accepted, placing]
  dsimp only
  rw [routed]
  exact ⟨_, _, rfl⟩

end EdgePlacement
