import EdgePlacement.Proofs.Placement.CandidateOrder
import EdgePlacement.Proofs.Placement.Loads
import EdgePlacement.Proofs.Placement.Turns

/-!
# Where services go

The first candidate with room takes the service, and the stretches of the order of candidates say
which one that is: the least loaded node where the weights have no mass, and otherwise the sampled
node, then the heaviest of the others, then the roomiest of those without weight.
-/

namespace EdgePlacement

open Binary64

set_option autoImplicit false

variable {σ δ : Type}

/-! ## Weights -/

theorem lift_of_positive {weight : Float} (positive : 0 < Quantity.liftToZero weight) :
    Quantity.liftToZero weight = weight := by
  unfold Quantity.liftToZero at positive ⊢
  split_ifs at positive with below
  · exact absurd positive (LawfulCounter.not_below 0 LawfulCounter.zero_le_zero)
  · exact if_neg below

theorem lift_of_above {weight : Float} (positive : 0 < weight) :
    Quantity.liftToZero weight = weight :=
  if_neg (LawfulCounter.not_below weight (LawfulCounter.le_of_lt 0 weight positive))

namespace Weighted

variable {weights : List Float} {nodes : List (Node Float)}

theorem lifted_at_iff {position : Nat} {entry : Weighted Float} (positive : 0 < entry.weight) :
    (listed (weights.map Quantity.liftToZero) nodes)[position]? = some entry ↔
      (listed weights nodes)[position]? = some entry := by
  rw [listed_at_iff, listed_at_iff, List.getElem?_map, Option.map_eq_some_iff]
  refine and_congr_left fun _ => ⟨?_, fun weighs => ⟨entry.weight, weighs, lift_of_above positive⟩⟩
  rintro ⟨weight, weighs, lifted⟩
  rw [← lifted] at positive ⊢
  rwa [lift_of_positive positive]

/-- The positive weights are the same before and after the others are lifted to zero. -/
theorem mem_lifted_unsampled_iff {sampled : Nat} {entry : Weighted Float} :
    entry ∈ unsampled (weights.map Quantity.liftToZero) nodes sampled ↔ 0 < entry.weight ∧
      ∃ position ≠ sampled, (listed weights nodes)[position]? = some entry := by
  rw [mem_unsampled_iff]
  refine and_congr_right fun positive => ?_
  simp only [lifted_at_iff positive]

end Weighted

section AnySummation

variable [Summation Float]

/-- The sampler takes the shares of the weights, and the next draw picks one above zero. -/
structure Sampler.PicksShare (sampler : Sampler Float σ δ) (weights : List Float) (g : σ) :
    Prop where
  admitted : sampler.admits weights.length (sharesOf weights) = true
  positive : ∃ share, (sharesOf weights)[sampler.sampled weights g]? = some share ∧ 0 < share

theorem Sampler.picks_share_iff (sampler : Sampler Float σ δ) (weights : List Float) (g : σ) :
    sampler.PicksShare weights g ↔
      sampler.admits weights.length (sharesOf weights) = true ∧
        ((sharesOf weights)[sampler.sampled weights g]?.any fun share => 0 < share) = true := by
  simp only [Option.any_eq_true, decide_eq_true_eq]
  exact ⟨fun picks => ⟨picks.admitted, picks.positive⟩, fun both => ⟨both.1, both.2⟩⟩

instance (sampler : Sampler Float σ δ) (weights : List Float) (g : σ) :
    Decidable (sampler.PicksShare weights g) :=
  decidable_of_iff _ (sampler.picks_share_iff weights g).symm

theorem Sampler.PicksShare.drawn {sampler : Sampler Float σ δ} {weights : List Float} {g : σ}
    (picks : sampler.PicksShare weights g) {nodes : List (Node Float)}
    (width : weights.length = nodes.length) :
    ∃ drawn : Weighted Float,
      (Weighted.listed weights nodes)[sampler.sampled weights g]? = some drawn ∧
        0 < drawn.weight := by
  obtain ⟨share, picked, positive⟩ := picks.positive
  unfold sharesOf at picked
  dsimp only at picked
  rw [List.getElem?_map, List.getElem?_map, Option.map_map, Option.map_eq_some_iff] at picked
  obtain ⟨weight, weighs, rfl⟩ := picked
  have above := positive_of_quotient positive (Quantity.lift_not_below weight)
  obtain ⟨within, -⟩ := List.getElem?_eq_some_iff.mp weighs
  have stands : nodes[sampler.sampled weights g]? =
      some (nodes[sampler.sampled weights g]) := List.getElem?_eq_getElem (width ▸ within)
  exact ⟨⟨weight, _⟩, Weighted.listed_at_iff.mpr ⟨weighs, stands⟩, lift_of_positive above ▸ above⟩

/-- The first node, in the order that the weights ask for, with room for what is needed. -/
inductive Destination (sampler : Sampler Float σ δ) (tolerance : Float) (weights : List Float)
    (nodes : List (Node Float)) (g : σ) (needs : Resources Float) : Option (Node Float) → Prop where
  | leastLoaded (n : Node Float) (massless : Massless tolerance weights)
      (least : LeastBy Node.loadRank (fun m => m ∈ nodes ∧ m.canHost needs = true) n) :
      Destination sampler tolerance weights nodes g needs (some n)
  | sampled (drawn : Weighted Float) (massive : ¬ Massless tolerance weights)
      (picked : (Weighted.listed weights nodes)[sampler.sampled weights g]? = some drawn)
      (positive : 0 < drawn.weight) (room : drawn.node.canHost needs = true) :
      Destination sampler tolerance weights nodes g needs (some drawn.node)
  | heaviest (drawn chosen : Weighted Float) (massive : ¬ Massless tolerance weights)
      (picked : (Weighted.listed weights nodes)[sampler.sampled weights g]? = some drawn)
      (positive : 0 < drawn.weight) (full : drawn.node.canHost needs = false)
      (least : LeastBy Weighted.rank (fun entry => entry ∈ Weighted.listed weights nodes ∧
        0 < entry.weight ∧ entry.node.canHost needs = true) chosen) :
      Destination sampler tolerance weights nodes g needs (some chosen.node)
  | roomiest (chosen : Weighted Float) (massive : ¬ Massless tolerance weights)
      (full : ∀ entry ∈ Weighted.listed weights nodes, 0 < entry.weight →
        entry.node.canHost needs = false)
      (least : LeastBy (fun entry => entry.node.capacityRank)
        (fun entry => entry ∈ Weighted.listed weights nodes ∧ ¬ 0 < entry.weight ∧
          entry.node.canHost needs = true) chosen) :
      Destination sampler tolerance weights nodes g needs (some chosen.node)
  | nowhere (full : ∀ n ∈ nodes, n.canHost needs = false) :
      Destination sampler tolerance weights nodes g needs none

section FirstWithRoom

variable {sampler : Sampler Float σ δ} {tolerance : Float} {weights : List Float}
  {nodes : List (Node Float)} {g : σ} {needs : Resources Float}

theorem massless_destination (massless : Massless tolerance weights)
    (measured : ∀ n ∈ nodes, n.Measured) :
    Destination sampler tolerance weights nodes g needs
      ((Node.byLoad nodes).find? fun n => n.canHost needs) := by
  cases found : (Node.byLoad nodes).find? fun n => n.canHost needs with
  | none =>
      refine .nowhere fun n member => ?_
      have refused := List.find?_eq_none.mp found n ((mem_by_load_iff nodes n).mpr member)
      exact Bool.eq_false_iff.mpr refused
  | some n =>
      have least := least_of_found
        (by_load_sorted fun m member => (measured m member).load_is_number) found
      simp only [mem_by_load_iff] at least
      exact .leastLoaded n massless least

omit [Summation Float] in
/-- The entries that come after the sampled one. -/
theorem heaviest_of_found {drawn : Weighted Float} {position : Nat} {n : Node Float}
    (picked : (Weighted.listed weights nodes)[position]? = some drawn)
    (full : drawn.node.canHost needs = false)
    (found : (Weighted.others (weights.map Quantity.liftToZero) nodes position).find?
      (fun n => n.canHost needs) = some n) :
    ∃ chosen : Weighted Float, chosen.node = n ∧
      LeastBy Weighted.rank (fun entry => entry ∈ Weighted.listed weights nodes ∧
        0 < entry.weight ∧ entry.node.canHost needs = true) chosen := by
  rw [Weighted.others_eq, List.find?_map, Option.map_eq_some_iff] at found
  obtain ⟨chosen, first, rfl⟩ := found
  have least := least_of_found (unsampled_sorted _ nodes position) first
  have eligible : ∀ entry : Weighted Float,
      (entry ∈ (Weighted.unsampled (weights.map Quantity.liftToZero) nodes position).mergeSort
          (fun a b => !b.precedes a) ∧ entry.node.canHost needs = true) ↔
        entry ∈ Weighted.listed weights nodes ∧ 0 < entry.weight ∧
          entry.node.canHost needs = true := by
    intro entry
    rw [List.mem_mergeSort, Weighted.mem_lifted_unsampled_iff, List.mem_iff_getElem?]
    constructor
    · rintro ⟨⟨positive, other, -, standing⟩, room⟩
      exact ⟨⟨other, standing⟩, positive, room⟩
    · rintro ⟨⟨other, standing⟩, positive, room⟩
      refine ⟨⟨positive, other, ?_, standing⟩, room⟩
      rintro rfl
      rw [picked] at standing
      cases standing
      rw [full] at room
      cases room
  exact ⟨chosen, rfl, (eligible chosen).mp least.holds,
    fun other member => least.least other ((eligible other).mpr member)⟩

omit [Summation Float] in
theorem first_choice_of_positive {drawn : Weighted Float} {position : Nat}
    (picked : (Weighted.listed weights nodes)[position]? = some drawn) {entry : Weighted Float}
    (member : entry ∈ Weighted.listed weights nodes) (positive : 0 < entry.weight) :
    entry.node ∈
      drawn.node :: Weighted.others (weights.map Quantity.liftToZero) nodes position := by
  obtain ⟨other, standing⟩ := List.mem_iff_getElem?.mp member
  by_cases same : other = position
  · subst same
    rw [picked] at standing
    cases standing
    exact List.mem_cons_self
  · have later := Weighted.mem_lifted_unsampled_iff.mpr ⟨positive, other, same, standing⟩
    rw [Weighted.others_eq]
    exact List.mem_cons_of_mem _ (List.mem_map_of_mem (List.mem_mergeSort.mpr later))

omit [Summation Float] in
/-- What has room when none of the first choices has is not one of them. -/
theorem roomiest_of_found {first : List (Node Float)} (width : weights.length = nodes.length)
    (distinct : (nodes.map (·.name)).Nodup) (measured : ∀ n ∈ nodes, n.Measured)
    (listed : ∀ m ∈ first, m ∈ nodes)
    (positives : ∀ entry ∈ Weighted.listed weights nodes, 0 < entry.weight → entry.node ∈ first)
    (full : ∀ m ∈ first, m.canHost needs = false) {n : Node Float}
    (found : ((Node.byCapacity nodes).filter fun n =>
      !(first.map (·.name)).contains n.name).find? (fun n => n.canHost needs) = some n) :
    ∃ chosen : Weighted Float, chosen.node = n ∧
      LeastBy (fun entry => entry.node.capacityRank)
        (fun entry => entry ∈ Weighted.listed weights nodes ∧ ¬ 0 < entry.weight ∧
          entry.node.canHost needs = true) chosen := by
  have sorted := (by_capacity_sorted fun m member => (measured m member).capacity_is_number).filter
    fun n => !(first.map (·.name)).contains n.name
  obtain ⟨⟨spare, room⟩, least⟩ := least_of_found sorted found
  have unseen : n ∉ first := by
    intro early
    rw [full n early] at room
    cases room
  have member := (mem_by_capacity_iff nodes n).mp (List.mem_of_mem_filter spare)
  obtain ⟨chosen, chosenListed, rfl⟩ := Weighted.listed_of_node width member
  refine ⟨chosen, rfl, ⟨chosenListed, ?_, room⟩, ?_⟩
  · exact fun positive => unseen (positives chosen chosenListed positive)
  · rintro other ⟨otherListed, -, otherRoom⟩
    have otherMember := Weighted.node_of_listed otherListed
    apply least other.node
    refine ⟨List.mem_filter.mpr ⟨(mem_by_capacity_iff nodes _).mpr otherMember, ?_⟩, otherRoom⟩
    rw [Bool.not_eq_true', ← Bool.not_eq_true, List.contains_iff_mem]
    intro seen
    obtain ⟨m, early, named⟩ := List.mem_map.mp seen
    have same := List.inj_on_of_nodup_map distinct (listed m early) otherMember named
    have refused := full m early
    rw [same, otherRoom] at refused
    cases refused

/-- When none of the first choices has room, whatever has weight has none. -/
theorem remaining_destination (massive : ¬ Massless tolerance weights)
    (width : weights.length = nodes.length) (distinct : (nodes.map (·.name)).Nodup)
    (measured : ∀ n ∈ nodes, n.Measured) {first : List (Node Float)}
    (listed : ∀ m ∈ first, m ∈ nodes)
    (positives : ∀ entry ∈ Weighted.listed weights nodes, 0 < entry.weight → entry.node ∈ first)
    (full : ∀ m ∈ first, m.canHost needs = false) :
    Destination sampler tolerance weights nodes g needs
      ((completeOrder first nodes).find? fun n => n.canHost needs) := by
  cases found : (completeOrder first nodes).find? fun n => n.canHost needs with
  | none =>
      refine .nowhere fun n member => ?_
      have unique : ∀ m ∈ nodes, ∀ n ∈ nodes, m.name = n.name → m = n :=
        fun _ here _ there named => List.inj_on_of_nodup_map distinct here there named
      have tried := complete_order_covers first nodes listed unique member
      exact Bool.eq_false_iff.mpr (List.find?_eq_none.mp found n tried)
  | some n =>
      have passed : first.find? (fun n => n.canHost needs) = none := by
        rw [List.find?_eq_none]
        exact fun m early => Bool.eq_false_iff.mp (full m early)
      unfold completeOrder at found
      dsimp only at found
      rw [List.find?_append, passed, Option.none_or] at found
      obtain ⟨chosen, rfl, least⟩ :=
        roomiest_of_found width distinct measured listed positives full found
      refine .roomiest chosen massive (fun entry member above => ?_) least
      exact full entry.node (positives entry member above)

theorem massive_destination (massive : ¬ Massless tolerance weights)
    (width : weights.length = nodes.length) (distinct : (nodes.map (·.name)).Nodup)
    (measured : ∀ n ∈ nodes, n.Measured) {drawn : Weighted Float}
    (picked : (Weighted.listed weights nodes)[sampler.sampled weights g]? = some drawn)
    (positive : 0 < drawn.weight) :
    Destination sampler tolerance weights nodes g needs
      ((completeOrder (drawn.node :: Weighted.others (weights.map Quantity.liftToZero) nodes
        (sampler.sampled weights g)) nodes).find? fun n => n.canHost needs) := by
  cases room : drawn.node.canHost needs with
  | true =>
      unfold completeOrder
      dsimp only
      rw [List.cons_append, List.find?_cons, room]
      exact .sampled drawn massive picked positive room
  | false =>
      cases heavier : (Weighted.others (weights.map Quantity.liftToZero) nodes
          (sampler.sampled weights g)).find? fun n => n.canHost needs with
      | some n =>
          obtain ⟨chosen, rfl, least⟩ := heaviest_of_found picked room heavier
          unfold completeOrder
          dsimp only
          rw [List.find?_append, List.find?_cons, room]
          dsimp only
          rw [heavier, Option.some_or]
          exact .heaviest drawn chosen massive picked positive room least
      | none =>
          apply remaining_destination massive width distinct measured
          · intro m early
            rcases List.mem_cons.mp early with rfl | other
            · exact Weighted.node_of_listed (List.mem_of_getElem? picked)
            · exact others_are_nodes _ nodes _ m other
          · exact fun entry member above => first_choice_of_positive picked member above
          · intro m early
            rcases List.mem_cons.mp early with rfl | other
            · exact room
            · exact Bool.eq_false_iff.mpr (List.find?_eq_none.mp heavier m other)

/-- Whatever the weights, there is an order of candidates, and the first one with room in it is the
destination. -/
theorem ordered_destination (needs : Resources Float)
    (picks : ¬ Massless tolerance weights → sampler.PicksShare weights g)
    (width : weights.length = nodes.length) (distinct : (nodes.map (·.name)).Nodup)
    (measured : ∀ n ∈ nodes, n.Measured) :
    ∃ order g', candidateOrder sampler weights nodes tolerance g = (.ok order, g') ∧
      Destination sampler tolerance weights nodes g needs
        (order.find? fun n => n.canHost needs) := by
  by_cases massless : Massless tolerance weights
  · exact ⟨_, _, massless_order massless g, massless_destination massless measured⟩
  · have sampling := picks massless
    obtain ⟨drawn, picked, positive⟩ := sampling.drawn width
    refine ⟨_, _, massive_order massless (width ▸ sampling.admitted) g, ?_⟩
    rw [(Weighted.listed_at_iff.mp picked).2]
    exact massive_destination massless width distinct measured picked positive

theorem Destination.none_iff {chosen : Option (Node Float)}
    (destination : Destination sampler tolerance weights nodes g needs chosen) :
    chosen = none ↔ ∀ n ∈ nodes, n.canHost needs = false := by
  have hosting : ∀ n ∈ nodes, n.canHost needs = true →
      ¬ ∀ m ∈ nodes, m.canHost needs = false := by
    intro n member room full
    rw [full n member] at room
    cases room
  cases destination with
  | nowhere full => exact iff_of_true rfl full
  | leastLoaded n massless least =>
      exact iff_of_false nofun (hosting n least.holds.1 least.holds.2)
  | sampled drawn massive picked positive room =>
      have member := Weighted.node_of_listed (List.mem_of_getElem? picked)
      exact iff_of_false nofun (hosting drawn.node member room)
  | heaviest drawn chosen massive picked positive full least =>
      obtain ⟨listed, -, room⟩ := least.holds
      exact iff_of_false nofun (hosting chosen.node (Weighted.node_of_listed listed) room)
  | roomiest chosen massive full least =>
      obtain ⟨listed, -, room⟩ := least.holds
      exact iff_of_false nofun (hosting chosen.node (Weighted.node_of_listed listed) room)

end FirstWithRoom

/-! ## Turns -/

/-- The nodes that a service is offered to: the listed ones, after it has been taken off them. -/
def RoundingPlan.offered (plan : RoundingPlan Float σ δ) (service : Service Float)
    (s : RoundingState Float σ) : List (Node Float) :=
  plan.nodes (s.topology.undeployEverywhere service)

theorem RoundingPlan.offered_measured {plan : RoundingPlan Float σ δ} {s : RoundingState Float σ}
    (measured : ∀ n ∈ s.topology.nodes, n.name ∈ plan.nodeNames → n.Measured)
    (input : RoundingInput Float) (position : Nat) (service : Service Float) :
    ∀ n ∈ plan.offered service (plan.stateAtTurn input s position), n.Measured := by
  have kept := Node.Measured.kept.toKeptByServices.of_names (· ∈ plan.nodeNames)
  have placed := kept.place_all plan
    ((input.services.zip input.fractions.rows).take position) (fun _ _ => trivial) measured
  have released : ((plan.stateAtTurn input s position).topology.undeployEverywhere
      service).EveryNode fun n => n.name ∈ plan.nodeNames → n.Measured :=
    kept.undeploy_everywhere trivial placed
  intro n member
  obtain ⟨stored, named⟩ := plan.listed_nodes_are_nodes _ n member
  exact released n stored named

/-- What happens to a service that has its turn in this state. -/
structure RoundingPlan.Assigns (plan : RoundingPlan Float σ δ) (service : Service Float)
    (weights : List Float) (s : RoundingState Float σ) (chosen : Option (Node Float)) : Prop where
  order : ∃ order g, candidateOrder plan.sampler weights (plan.offered service s) plan.tolerance
    s.generator = (.ok order, g) ∧ order.Perm (plan.offered service s)
  drawn : ¬ Massless plan.tolerance weights → ∃ drawn : Weighted Float,
    (Weighted.listed weights (plan.offered service s))[
      plan.sampler.sampled weights s.generator]? = some drawn ∧ 0 < drawn.weight
  destination : Destination plan.sampler plan.tolerance weights (plan.offered service s) s.generator
    service.requirements chosen
  nowhere : chosen = none ↔
    ∀ n ∈ plan.offered service s, n.canHost service.requirements = false

theorem RoundingPlan.assigns_at_turn {plan : RoundingPlan Float σ δ} {service : Service Float}
    {weights : List Float} {s : RoundingState Float σ} {host : Option String}
    (known : ∀ name ∈ plan.nodeNames, name ∈ s.topology.nodeNames) (once : plan.nodeNames.Nodup)
    (measured : ∀ n ∈ plan.offered service s, n.Measured)
    (width : weights.length = plan.nodeNames.length)
    (sampling : ¬ Massless plan.tolerance weights →
      plan.sampler.PicksShare weights s.generator)
    (placed : (plan.place service weights s).2 = .ok host) :
    ∃ chosen : Option (Node Float), host = chosen.map (·.name) ∧
      plan.Assigns service weights s chosen := by
  have names : (plan.offered service s).map (·.name) = plan.nodeNames :=
    plan.listed_node_names ((s.topology.undeploy_everywhere_node_names service).symm ▸ known)
  have distinct : ((plan.offered service s).map (·.name)).Nodup := names ▸ once
  have width' : weights.length = (plan.offered service s).length := by
    rw [width, ← names, List.length_map]
  obtain ⟨order, g, ordered, destination⟩ :=
    ordered_destination service.requirements sampling width' distinct measured
  rw [place_first_with_room ordered] at placed
  cases placed
  exact ⟨_, rfl, ⟨order, g, ordered, candidates_permute_nodes ordered width' distinct⟩,
    fun massive => (sampling massive).drawn width', destination, destination.none_iff⟩

/-- Where services go, on listed nodes whose capacities are finite and with a sampler that picks
nothing without a share: placing returns, and each service has been assigned in its turn to the
first node with room for it in a permutation of the listed ones. When its weights have no mass, that
is the node of least load. When they have, it is the sampled node, else the one of greatest positive
weight, else the one of greatest capacity among those without weight. -/
theorem services_assigned_in_tiers [PathChoice Float] (plan : RoundingPlan Float σ δ)
    (input : RoundingInput Float) (s : RoundingState Float σ)
    (accepted : input.fault? plan.nodeNames s.topology = none)
    (distinct : s.topology.nodeNames.Nodup) (once : plan.nodeNames.Nodup)
    (measured : ∀ n ∈ s.topology.nodes, n.name ∈ plan.nodeNames → n.Measured)
    (widths : ∀ row ∈ input.fractions.rows, row.length = input.fractions.columns)
    (sampling : ∀ position service weights,
      (input.services.zip input.fractions.rows)[position]? = some (service, weights) →
      ¬ Massless plan.tolerance weights →
        plan.sampler.PicksShare weights (plan.stateAtTurn input s position).generator) :
    ∃ assignments,
      (plan.placeAll (input.services.zip input.fractions.rows) s).2 = .ok assignments ∧
      (∀ s' placement, roundFractions plan input s = (s', .ok placement) →
        placement.assignments.entries = assignments) ∧
      ∀ position service weights,
        (input.services.zip input.fractions.rows)[position]? = some (service, weights) →
        ∃ chosen : Option (Node Float),
          assignments[position]? = some (service.name, chosen.map (·.name)) ∧
            plan.Assigns service weights (plan.stateAtTurn input s position) chosen := by
  obtain ⟨-, -, known⟩ := RoundingInput.accepted accepted
  have columns := RoundingInput.accepted_width accepted
  have width : ∀ row ∈ input.services.zip input.fractions.rows,
      row.2.length = plan.nodeNames.length :=
    fun row listed => (widths row.2 (List.of_mem_zip listed).2).trans columns
  have taken : ∀ row ∈ input.services.zip input.fractions.rows, ¬ plan.SharesRefused row.2 := by
    rintro ⟨service, weights⟩ listed ⟨massive, refused⟩
    obtain ⟨position, stands⟩ := List.mem_iff_getElem?.mp listed
    have admitted := (sampling position service weights stands massive).admitted
    rw [width _ listed, refused] at admitted
    cases admitted
  obtain ⟨s', assignments, placed⟩ := RoundingPlan.place_all_returns distinct known taken
  refine ⟨assignments, congrArg Prod.snd placed, ?_, ?_⟩
  · intro s'' placement rounded
    obtain ⟨-, placed', assignments', routing, placing, -, rfl⟩ := round_returned rounded
    rw [placed] at placing
    cases placing
    rfl
  · intro position service weights stands
    have listed := List.mem_of_getElem? stands
    obtain ⟨host, placing, assigned⟩ := RoundingPlan.place_all_turn placed stands
    have names := plan.place_all_node_names
      ((input.services.zip input.fractions.rows).take position) s
    obtain ⟨chosen, rfl, assigns⟩ := RoundingPlan.assigns_at_turn
      (fun name member => names.symm ▸ known name member) once
      (RoundingPlan.offered_measured measured input position service) (width _ listed)
      (sampling position service weights stands) placing
    exact ⟨chosen, assigned, assigns⟩

end AnySummation

def tieredNodes : Topology Float :=
  Operation.run [.reserve "a" ⟨1, 1, 0, 0⟩]
    { nodes := [.fresh "a" ⟨4, 4, 0, 0⟩, .fresh "b" ⟨2, 2, 0, 0⟩, .fresh "c" ⟨8, 8, 0, 0⟩]
      links := []
      canonical := [("a", "a"), ("b", "b"), ("c", "c")]
      tieTolerance := 1e-9 }

/-- A service without weights, one that the sampled node has room for, one for another node of
weight, one for a node without weight, and one for none. -/
def tieredFractions : RoundingInput Float where
  fractions := ⟨3, [[0, 0, 0], [0, 1, 0], [0.25, 0.75, 0], [0, 1, 0], [0.5, 0.5, 0]]⟩
  services := [⟨"idle", 1, 1, 0, 0, 0, 0⟩, ⟨"drawn", 1, 1, 0, 0, 0, 0⟩,
    ⟨"heavy", 3, 3, 0, 0, 0, 0⟩, ⟨"spare", 4, 4, 0, 0, 0, 0⟩, ⟨"huge", 100, 1, 0, 0, 0, 0⟩]
  demands := []
  weight := "latency"

def tieredPlan : RoundingPlan Float Random.Pcg Float :=
  ⟨pcgSampler, ["a", "b", "c"], 1e-6⟩

theorem tiered_fractions_assigned :
    ∃ assignments,
      (tieredPlan.placeAll (tieredFractions.services.zip tieredFractions.fractions.rows)
        ⟨tieredNodes, Random.Pcg.ofSeed 42⟩).2 = .ok assignments ∧
      (∀ s' placement, roundFractions tieredPlan tieredFractions
        ⟨tieredNodes, Random.Pcg.ofSeed 42⟩ = (s', .ok placement) →
          placement.assignments.entries = assignments) ∧
      ∀ position service weights,
        (tieredFractions.services.zip tieredFractions.fractions.rows)[position]? =
          some (service, weights) →
        ∃ chosen : Option (Node Float),
          assignments[position]? = some (service.name, chosen.map (·.name)) ∧
            tieredPlan.Assigns service weights (tieredPlan.stateAtTurn tieredFractions
              ⟨tieredNodes, Random.Pcg.ofSeed 42⟩ position) chosen := by
  have measured : tieredNodes.EveryNode Node.Measured := by
    apply usages_stay_numbers
    intro n member
    simp only [List.mem_cons, List.not_mem_nil, or_false] at member
    rcases member with rfl | rfl | rfl <;> apply Node.Measured.of_fresh <;> intro d <;>
      cases d <;> decide
  have distinct : tieredNodes.nodeNames.Nodup := by decide +kernel
  have known : ∀ name ∈ tieredPlan.nodeNames, name ∈ tieredNodes.nodeNames := by decide +kernel
  have taken : ∀ row ∈ tieredFractions.services.zip tieredFractions.fractions.rows,
      ¬ tieredPlan.SharesRefused row.2 := by
    unfold RoundingPlan.SharesRefused
    decide +kernel
  refine services_assigned_in_tiers tieredPlan tieredFractions ⟨tieredNodes, Random.Pcg.ofSeed 42⟩
    (by decide +kernel) distinct (by decide) (fun n stored _ => measured n stored) (by decide) ?_
  intro position service weights listed massive
  unfold RoundingPlan.stateAtTurn
  rw [RoundingPlan.place_all_generator distinct known
    fun row member => taken row (List.mem_of_mem_take member)]
  have short : position < 5 := (List.getElem?_eq_some_iff.mp listed).1
  interval_cases position <;> cases listed
  · exact absurd (by decide +kernel) massive
  all_goals decide +kernel

end EdgePlacement
