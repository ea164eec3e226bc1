import Mathlib.Algebra.Order.BigOperators.Group.List
import Mathlib.Algebra.Order.Group.MinMax
import Mathlib.Algebra.Order.Ring.Rat
import EdgePlacement.Proofs.LawfulCounters
import EdgePlacement.Proofs.NodeInvariants
import EdgePlacement.Proofs.Placement.Hosting
import EdgePlacement.Proofs.Resources

/-!
# The shares of hosted services

Each service on a node has a share of its usage: what its name stands for. Putting a service on a
node and taking one off changes usage and shares by the same amount, so the difference between the
two stays what it is, as long as the floor at zero is not met; and a floor only moves the difference
towards zero. On a node that nothing else has reserved the difference is zero and the floor idle.
-/

namespace EdgePlacement

set_option autoImplicit false

/-- What the services on a node need together when each of them is counted once. -/
def Node.booked (needs : String → Resources Rat) (n : Node Rat) (d : Dimension) : Rat :=
  (n.hosted.map fun service => (needs service).get d).sum

/-- What is in use beyond the shares of the hosted services; below zero where it falls short. -/
def Node.surplus (needs : String → Resources Rat) (n : Node Rat) (d : Dimension) : Rat :=
  n.usage.get d - n.booked needs d

structure Node.Accounted (needs : String → Resources Rat) (n : Node Rat) : Prop where
  once : n.hosted.Nodup
  usage : ∀ d, n.usage.get d = n.booked needs d

/-- The surplus has at most moved towards zero from where the node of this name started. -/
structure Node.SurplusWithin (needs : String → Resources Rat) (start : String → Dimension → Rat)
    (n : Node Rat) : Prop where
  once : n.hosted.Nodup
  above : ∀ d, start n.name d ≤ n.surplus needs d
  below : ∀ d, n.surplus needs d ≤ max 0 (start n.name d)

namespace Node

variable {needs : String → Resources Rat} {n : Node Rat}

/-! ## Shares -/

theorem booked_with (n : Node Rat) (usage : Resources Rat) (service : String) (d : Dimension) :
    ({ n with usage := usage, hosted := n.hosted ++ [service] } : Node Rat).booked needs d =
      n.booked needs d + (needs service).get d := by
  unfold booked
  rw [List.map_append, List.sum_append, List.map_singleton, List.sum_singleton]

theorem booked_without (once : n.hosted.Nodup) (usage : Resources Rat) {service : String}
    (hosted : n.hosts service = true) (d : Dimension) :
    ({ n with
        usage := usage
        hosted := n.hosted.filter (· ≠ service) } : Node Rat).booked needs d +
      (needs service).get d = n.booked needs d := by
  have member : service ∈ n.hosted := List.contains_iff_mem.mp hosted
  have erased : n.hosted.filter (· ≠ service) = n.hosted.erase service := by
    rw [once.erase_eq_filter]
    refine List.filter_congr fun other _ => ?_
    by_cases same : other = service <;> simp [same]
  unfold booked
  rw [erased, add_comm]
  exact List.sum_map_erase (fun name => (needs name).get d) member

theorem booked_nonneg (nonneg : ∀ service, (needs service).NotNegative) (n : Node Rat)
    (d : Dimension) : 0 ≤ n.booked needs d := by
  apply List.sum_nonneg
  intro share member
  obtain ⟨service, -, rfl⟩ := List.mem_map.mp member
  exact not_lt.mp ((Resources.not_negative_iff _).mp (nonneg service) d)

theorem share_le_booked (nonneg : ∀ service, (needs service).NotNegative) (once : n.hosted.Nodup)
    {service : String} (hosted : n.hosts service = true) (d : Dimension) :
    (needs service).get d ≤ n.booked needs d := by
  have others : _ + (needs service).get d = n.booked needs d :=
    booked_without once n.usage hosted d
  rw [← others]
  exact le_add_of_nonneg_left (booked_nonneg nonneg _ d)

theorem accounted_iff_surplus : n.Accounted needs ↔ n.SurplusWithin needs fun _ _ => 0 := by
  constructor
  · intro accounted
    have none : ∀ d, n.surplus needs d = 0 := fun d => sub_eq_zero.mpr (accounted.usage d)
    exact ⟨accounted.once, fun d => (none d).ge, fun d => (none d).le.trans (le_max_left 0 0)⟩
  · intro within
    refine ⟨within.once, fun d => sub_eq_zero.mp (le_antisymm ?_ (within.above d))⟩
    exact (within.below d).trans_eq (max_self 0)

/-! ## Services that come and go -/

theorem surplus_deployed {n' : Node Rat} {service : Service Rat}
    (carried : service.requirements = needs service.name)
    (fits : n.deploy? service = some n') (d : Dimension) :
    n'.surplus needs d = n.surplus needs d := by
  rcases deploy_cases fits with ⟨-, rfl⟩ | ⟨-, -, rfl⟩
  · rfl
  · unfold surplus
    rw [booked_with, Resources.get_add, carried, add_sub_add_right_eq_sub]

theorem deployed_once {n' : Node Rat} {service : Service Rat} (once : n.hosted.Nodup)
    (fits : n.deploy? service = some n') : n'.hosted.Nodup := by
  rcases deploy_cases fits with ⟨-, rfl⟩ | ⟨absent, -, rfl⟩
  · exact once
  · rw [← List.concat_eq_append]
    apply List.Nodup.concat _ once
    intro present
    rw [hosts, List.contains_iff_mem.mpr present] at absent
    cases absent

/-- Where less is in use than the share of a service that leaves, the floor makes up for it. -/
theorem surplus_undeployed {service : Service Rat} (once : n.hosted.Nodup)
    (carried : service.requirements = needs service.name) (hosted : n.hosts service.name = true)
    (d : Dimension) :
    (n.undeploy service).surplus needs d = max (-(n.undeploy service).booked needs d)
      (n.surplus needs d) := by
  have usage : (n.undeploy service).usage.get d =
      max 0 (n.usage.get d - (needs service.name).get d) := by
    unfold undeploy release
    rw [if_pos hosted, ← Quantity.positive_part_eq_max, ← carried, ← Resources.get_sub,
      ← Resources.get_floor_zero]
  have shares : (n.undeploy service).booked needs d + (needs service.name).get d =
      n.booked needs d := by
    unfold undeploy
    rw [if_pos hosted]
    exact booked_without once _ hosted d
  unfold surplus
  rw [usage, ← shares, ← max_sub_sub_right, zero_sub, sub_sub, add_comm]

theorem undeployed_once (once : n.hosted.Nodup) (service : Service Rat) :
    (n.undeploy service).hosted.Nodup := by
  unfold undeploy
  split_ifs
  · exact once.filter _
  · exact once

/-- Services that carry what their names stand for leave the surplus alone, or take it nearer to
zero. -/
theorem surplus_kept (nonneg : ∀ service, (needs service).NotNegative)
    (start : String → Dimension → Rat) :
    KeptByServices (fun service : Service Rat => service.requirements = needs service.name)
      (SurplusWithin needs start) where
  deploy n n' service carried within fits := by
    have name : n'.name = n.name := deploy_keeps_name fits
    refine ⟨deployed_once within.once fits, fun d => ?_, fun d => ?_⟩ <;>
      rw [name, surplus_deployed carried fits]
    · exact within.above d
    · exact within.below d
  undeploy n service carried within := by
    by_cases hosted : n.hosts service.name = true
    · refine ⟨undeployed_once within.once service, fun d => ?_, fun d => ?_⟩ <;>
        rw [undeploy_keeps_name, surplus_undeployed within.once carried hosted]
      · exact (within.above d).trans (le_max_right _ _)
      · apply max_le _ (within.below d)
        have shares := booked_nonneg nonneg (n.undeploy service) d
        exact (neg_nonpos.mpr shares).trans (le_max_left _ _)
    · have unchanged : n.undeploy service = n := if_neg hosted
      rw [unchanged]
      exact within

theorem Accounted.floor_idle (accounted : n.Accounted needs)
    (nonneg : ∀ service, (needs service).NotNegative) {service : Service Rat}
    (carried : service.requirements = needs service.name) (hosted : n.hosts service.name = true) :
    (n.usage - service.requirements).floorZero = n.usage - service.requirements := by
  apply Resources.ext_get
  intro d
  have share := share_le_booked nonneg accounted.once hosted d
  rw [Resources.get_floor_zero, Resources.get_sub, Quantity.positive_part_eq_max, carried,
    accounted.usage]
  exact max_eq_right (sub_nonneg.mpr share)

theorem Accounted.unused_when_empty (accounted : n.Accounted needs) (empty : n.hosted = []) :
    n.usage = 0 := by
  apply Resources.ext_get
  intro d
  rw [accounted.usage, booked, empty, Resources.get_zero]
  rfl

theorem accounted_of_empty (unused : n.usage = 0) (empty : n.hosted = []) :
    n.Accounted needs := by
  refine ⟨empty ▸ List.nodup_nil, fun d => ?_⟩
  rw [booked, unused, empty, Resources.get_zero]
  rfl

theorem accounted_kept (nonneg : ∀ service, (needs service).NotNegative) :
    KeptByOperations (fun service : Service Rat => service.requirements = needs service.name)
      (fun _ => False) (Accounted needs) where
  deploy n n' service carried accounted fits :=
    accounted_iff_surplus.mpr <| (surplus_kept nonneg _).deploy n n' service carried
      (accounted_iff_surplus.mp accounted) fits
  undeploy n service carried accounted :=
    accounted_iff_surplus.mpr <| (surplus_kept nonneg _).undeploy n service carried
      (accounted_iff_surplus.mp accounted)
  reserve _ _ _ unrequested := unrequested.elim
  release _ _ unrequested := unrequested.elim
  reset _ _ := accounted_of_empty rfl rfl

end Node

/-! ## Runs -/

/-- Services account for usage: when services that carry what their names stand for come and go on
empty nodes, by themselves or in roundings, then at every point of the run what is in use on a node
is the sum of what the services on it need, each counted once. So nothing is in use on a node
without services, and no service that leaves takes the usage to the floor at zero. -/
theorem usage_accounts_for_hosted_services (t : Topology Rat) (operations : List (Operation Rat))
    (empty : ∀ n ∈ t.nodes, n.usage = 0 ∧ n.hosted = []) (needs : String → Resources Rat)
    (nonneg : ∀ service, (needs service).isNegative = false)
    (carried : ∀ operation ∈ operations, ∀ service ∈ operation.services,
      service.requirements = needs service.name)
    (onlyServices : ∀ operation ∈ operations, operation.requests = []) :
    ∀ t', Operation.Passes t operations t' → ∀ n ∈ t'.nodes,
      n.hosted.Nodup ∧
      (∀ d, n.usage.get d = (n.hosted.map fun service => (needs service).get d).sum) ∧
      (n.hosted = [] → n.usage = 0) ∧
      ∀ service : Service Rat, service.requirements = needs service.name →
        n.hosts service.name = true →
          (n.usage - service.requirements).floorZero = n.usage - service.requirements := by
  intro t' passed n member
  have start : t.EveryNode (Node.Accounted needs) := fun n stored =>
    Node.accounted_of_empty (empty n stored).1 (empty n stored).2
  have requested : ∀ operation ∈ operations, ∀ request ∈ operation.requests, False := by
    intro operation listed request asked
    rw [onlyServices operation listed] at asked
    cases asked
  have accounted : n.Accounted needs :=
    (Node.accounted_kept nonneg).passes carried requested start passed n member
  refine ⟨accounted.once, accounted.usage, accounted.unused_when_empty, ?_⟩
  exact fun service same hosted => accounted.floor_idle nonneg same hosted

def crampedNode : Topology Rat where
  nodes := [Node.fresh "a" ⟨3, 3, 3, 3⟩]
  links := []
  canonical := [("a", "a")]
  tieTolerance := 0

def crampedNeeds (service : String) : Resources Rat :=
  if service = "s" then ⟨2, 0, 0, 0⟩ else ⟨1, 1, 0, 0⟩

/-- A service deployed twice, one refused, one taken off that is not there, and a rounding. -/
def crampedRun : List (Operation Rat) :=
  [.deploy "a" ⟨"s", 2, 0, 1, 0, 0, 0⟩, .deploy "a" ⟨"s", 2, 0, 1, 0, 0, 0⟩,
    .deploy "a" ⟨"t", 1, 1, 1, 0, 0, 0⟩, .deploy "a" ⟨"u", 1, 1, 1, 0, 0, 0⟩,
    .undeploy "a" ⟨"u", 1, 1, 1, 0, 0, 0⟩,
    .round ⟨firstChoice, ["a"], 0⟩
      ⟨⟨1, [[1], [1]]⟩, [⟨"u", 1, 1, 1, 0, 0, 0⟩, ⟨"s", 2, 0, 1, 0, 0, 0⟩], [], "latency"⟩ (),
    .undeploy "a" ⟨"t", 1, 1, 1, 0, 0, 0⟩, .resetNode "a"]

def crampedHost : Node Rat :=
  ⟨"a", ⟨3, 3, 3, 3⟩, ⟨3, 1, 0, 0⟩, ["t", "s"]⟩

theorem cramped_usage_accounts_for_hosted_services :
    crampedHost.hosted.Nodup ∧
    (∀ d, crampedHost.usage.get d =
      (crampedHost.hosted.map fun service => (crampedNeeds service).get d).sum) ∧
    (crampedHost.hosted = [] → crampedHost.usage = 0) ∧
    ∀ service : Service Rat, service.requirements = crampedNeeds service.name →
      crampedHost.hosts service.name = true →
        (crampedHost.usage - service.requirements).floorZero =
          crampedHost.usage - service.requirements := by
  have nonneg : ∀ service, (crampedNeeds service).isNegative = false := by
    intro service
    unfold crampedNeeds
    split <;> decide
  have passed : Operation.Passes crampedNode crampedRun
      (Operation.run (crampedRun.take 6) crampedNode) :=
    .between (crampedRun.take 6) (crampedRun.drop 6) rfl
  have nodes : (Operation.run (crampedRun.take 6) crampedNode).nodes = [crampedHost] := by cbv
  exact usage_accounts_for_hosted_services crampedNode crampedRun (by decide) crampedNeeds nonneg
    (by decide) (by decide) _ passed crampedHost (nodes ▸ List.mem_cons_self)

end EdgePlacement
