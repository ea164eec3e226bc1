import EdgePlacement.Proofs.Runs

/-!
# Invariants of single nodes

Placing and rounding do nothing to a node but take services off it and put services on it, and
routing does nothing to it at all. What every node keeps under these two steps it therefore keeps
under a whole rounding, however far it comes; and what it also keeps when resources are reserved and
released by themselves and when it is reset, it keeps under every run of operations. The services
that occur are known by a predicate, so that an invariant may rely on what their names stand for.
-/

namespace EdgePlacement

open Relation

set_option autoImplicit false

variable {α σ δ : Type} [Quantity α]

/-- The coming and going of known services does not end the property. -/
structure Node.KeptByServices (known : Service α → Prop) (holds : Node α → Prop) : Prop where
  deploy : ∀ (n n' : Node α) (service : Service α), known service → holds n →
    n.deploy? service = some n' → holds n'
  undeploy : ∀ (n : Node α) (service : Service α), known service → holds n →
    holds (n.undeploy service)

/-- Neither do reservations and releases that no service stands behind, nor a reset. -/
structure Node.KeptByOperations (known : Service α → Prop) (request : Resources α → Prop)
    (holds : Node α → Prop) : Prop extends Node.KeptByServices known holds where
  reserve : ∀ (n n' : Node α) (needs : Resources α), request needs → holds n →
    n.reserve? needs = some n' → holds n'
  release : ∀ (n : Node α) (needs : Resources α), request needs → holds n →
    holds (n.release needs)
  reset : ∀ n : Node α, holds n → holds n.reset

namespace Topology

def EveryNode (t : Topology α) (holds : Node α → Prop) : Prop :=
  ∀ n ∈ t.nodes, holds n

variable {t : Topology α} {holds : Node α → Prop}

omit [Quantity α] in
theorem EveryNode.of_same_nodes {t' : Topology α} (every : t.EveryNode holds)
    (same : t'.nodes = t.nodes) : t'.EveryNode holds := by
  unfold EveryNode
  rw [same]
  exact every

omit [Quantity α] in
theorem EveryNode.update_node (every : t.EveryNode holds) (name : String)
    {f : Node α → Node α} (kept : ∀ n, holds n → holds (f n)) :
    (t.updateNode name f).EveryNode holds := by
  intro n member
  obtain ⟨origin, stored, rfl⟩ := List.mem_map.mp member
  split_ifs
  · exact kept origin (every origin stored)
  · exact every origin stored

end Topology

/-! ## Placing and rounding -/

namespace Node.KeptByServices

variable {known : Service α → Prop} {holds : Node α → Prop}

theorem undeploy_everywhere (kept : Node.KeptByServices known holds) {t : Topology α}
    {service : Service α} (familiar : known service) (every : t.EveryNode holds) :
    (t.undeployEverywhere service).EveryNode holds := by
  intro n member
  obtain ⟨origin, stored, rfl⟩ := List.mem_map.mp member
  exact kept.undeploy origin service familiar (every origin stored)

variable [Summation α]

theorem place (kept : Node.KeptByServices known holds) (plan : RoundingPlan α σ δ)
    {service : Service α} (familiar : known service) (weights : List α)
    {s : RoundingState α σ} (every : s.topology.EveryNode holds) :
    (plan.place service weights s).1.topology.EveryNode holds := by
  have released := kept.undeploy_everywhere familiar every
  have outcome := plan.place_outcome service weights s
  generalize plan.place service weights s = result at outcome ⊢
  cases outcome with
  | refused => exact released
  | unplaced => exact released
  | placed before after n n' g order passed fits =>
      have listed := candidates_are_nodes _ _ _ _ _ _ _ order n (by simp)
      obtain ⟨stored, -⟩ := plan.listed_nodes_are_nodes _ n listed
      exact released.update_node n'.name fun _ _ =>
        kept.deploy n n' service familiar (released n stored) fits

theorem place_all (kept : Node.KeptByServices known holds) (plan : RoundingPlan α σ δ)
    (rows : List (Service α × List α)) (familiar : ∀ row ∈ rows, known row.1)
    {s : RoundingState α σ} (every : s.topology.EveryNode holds) :
    (plan.placeAll rows s).1.topology.EveryNode holds := by
  induction rows generalizing s with
  | nil => exact every
  | cons row rest ih =>
      obtain ⟨service, weights⟩ := row
      have first := kept.place plan (familiar _ List.mem_cons_self) weights every
      have familiarRest := fun row member => familiar row (List.mem_cons_of_mem _ member)
      unfold RoundingPlan.placeAll
      split <;> rename_i placed <;> rw [placed] at first
      · exact first
      · exact ih familiarRest first

variable [PathChoice α]

theorem round (kept : Node.KeptByServices known holds) (plan : RoundingPlan α σ δ)
    (input : RoundingInput α) (familiar : ∀ service ∈ input.services, known service)
    {s : RoundingState α σ} (every : s.topology.EveryNode holds) :
    (roundFractions plan input s).1.topology.EveryNode holds := by
  have placing := kept.place_all plan (input.services.zip input.fractions.rows)
    (fun row member => familiar row.1 (List.of_mem_zip member).1) every
  unfold roundFractions
  split
  · exact every
  · split <;> rename_i placed <;> rw [placed] at placing
    · exact placing
    · exact placing.of_same_nodes (Topology.route_demands_keep_nodes _ _ _ _)

end Node.KeptByServices

/-! ## Runs of operations -/

variable [Summation α]

/-- The topology when the service of this position has its turn. -/
def RoundingPlan.atTurn (plan : RoundingPlan α σ δ) (input : RoundingInput α)
    (s : RoundingState α σ) (position : Nat) : Topology α :=
  (plan.placeAll ((input.services.zip input.fractions.rows).take position) s).1.topology

namespace Operation

def services : Operation α → List (Service α)
  | deploy _ service | undeploy _ service => [service]
  | round _ input _ => input.services
  | solve _ workload _ _ => workload.services
  | _ => []

def requests : Operation α → List (Resources α)
  | reserve _ needs | release _ needs => [needs]
  | _ => []

variable [PathChoice α]

/-- The topologies that a run goes through: before and after each of its operations, and within a
rounding whenever a service has its turn. -/
inductive Passes (t : Topology α) (operations : List (Operation α)) : Topology α → Prop where
  | between (made rest : List (Operation α)) (parts : operations = made ++ rest) :
      Passes t operations (run made t)
  | turn {σ δ : Type} (made rest : List (Operation α)) (plan : RoundingPlan α σ δ)
      (input : RoundingInput α) (g : σ) (position : Nat)
      (parts : operations = made ++ .round plan input g :: rest)
      (accepted : input.fault? plan.nodeNames (run made t) = none) :
      Passes t operations (plan.atTurn input ⟨run made t, g⟩ position)

end Operation

namespace Node.KeptByOperations

variable {known : Service α → Prop} {request : Resources α → Prop} {holds : Node α → Prop}

omit [Summation α] in
theorem reset_usage (kept : Node.KeptByOperations known request holds) {t : Topology α}
    (every : t.EveryNode holds) : t.resetUsage.EveryNode holds := by
  intro n member
  obtain ⟨origin, stored, rfl⟩ := List.mem_map.mp member
  exact kept.reset origin (every origin stored)

variable [PathChoice α]

theorem solve (kept : Node.KeptByOperations known request holds) (planner : Planner α σ δ)
    {t : Topology α} (workload : Workload α) (settings : Settings α) (skippedRecords : Nat)
    (familiar : ∀ service ∈ workload.services, known service) (every : t.EveryNode holds) :
    (planner.run t workload settings skippedRecords).1.EveryNode holds := by
  unfold Planner.run
  split
  · exact every
  · rename_i relaxation solution _
    have start : (if settings.resetUsage then t.resetUsage else t).EveryNode holds := by
      split_ifs
      · exact kept.reset_usage every
      · exact every
    dsimp only
    generalize (if settings.resetUsage then t.resetUsage else t) = started at start ⊢
    split
    · exact start
    · rename_i g _
      have rounding := kept.toKeptByServices.round
        ⟨planner.sampler, relaxation.nodeNames, settings.tolerance⟩
        ⟨solution.fractions, workload.services, workload.demands, settings.weight.name⟩
        (s := ⟨started, g⟩) familiar start
      split <;> rename_i rounded <;> rw [rounded] at rounding <;> exact rounding

theorem apply (kept : Node.KeptByOperations known request holds) {t : Topology α}
    (operation : Operation α) (familiar : ∀ service ∈ operation.services, known service)
    (requested : ∀ needs ∈ operation.requests, request needs) (every : t.EveryNode holds) :
    (operation.apply t).EveryNode holds := by
  cases operation with
  | reserve node needs =>
      have admitted := requested needs (List.mem_singleton.mpr rfl)
      refine every.update_node node fun n held => ?_
      cases reserved : n.reserve? needs with
      | none => exact held
      | some n' => exact kept.reserve n n' needs admitted held reserved
  | release node needs =>
      have admitted := requested needs (List.mem_singleton.mpr rfl)
      exact every.update_node node fun n held => kept.release n needs admitted held
  | deploy node service =>
      have known := familiar service (List.mem_singleton.mpr rfl)
      refine every.update_node node fun n held => ?_
      cases deployed : n.deploy? service with
      | none => exact held
      | some n' => exact kept.deploy n n' service known held deployed
  | undeploy node service =>
      have known := familiar service (List.mem_singleton.mpr rfl)
      exact every.update_node node fun n held => kept.undeploy n service known held
  | resetNode node => exact every.update_node node kept.reset
  | round plan input generator =>
      exact kept.toKeptByServices.round plan input familiar every
  | solve planner workload settings skippedRecords =>
      exact kept.solve planner workload settings skippedRecords familiar every
  | resetUsage => exact kept.reset_usage every
  | reserveLink => exact every
  | releaseLink => exact every
  | resetLink => exact every
  | reservePath path width =>
      have changes : ReflTransGen (LinkChange fun _ => True) t (t.reservePath path width).1 :=
        Topology.reserve_path_changes trivial path t
      exact every.of_same_nodes (Topology.link_changes_keep_nodes changes).1
  | routeDemands demands assignments weight =>
      exact every.of_same_nodes (t.route_demands_keep_nodes demands assignments weight)

theorem run (kept : Node.KeptByOperations known request holds) (operations : List (Operation α))
    {t : Topology α}
    (familiar : ∀ operation ∈ operations, ∀ service ∈ operation.services, known service)
    (requested : ∀ operation ∈ operations, ∀ needs ∈ operation.requests, request needs)
    (every : t.EveryNode holds) : (Operation.run operations t).EveryNode holds := by
  induction operations generalizing t with
  | nil => exact every
  | cons operation rest ih =>
      have first := kept.apply operation (familiar operation List.mem_cons_self)
        (requested operation List.mem_cons_self) every
      have familiarRest := fun later member => familiar later (List.mem_cons_of_mem _ member)
      have requestedRest := fun later member => requested later (List.mem_cons_of_mem _ member)
      exact ih familiarRest requestedRest first

theorem passes (kept : Node.KeptByOperations known request holds) {operations : List (Operation α)}
    {t t' : Topology α}
    (familiar : ∀ operation ∈ operations, ∀ service ∈ operation.services, known service)
    (requested : ∀ operation ∈ operations, ∀ needs ∈ operation.requests, request needs)
    (every : t.EveryNode holds) (passed : Operation.Passes t operations t') :
    t'.EveryNode holds := by
  cases passed with
  | between made rest parts =>
      subst parts
      exact kept.run made
        (fun operation member => familiar operation (List.mem_append_left _ member))
        (fun operation member => requested operation (List.mem_append_left _ member)) every
  | turn made rest plan input g position parts =>
      subst parts
      have before := kept.run made
        (fun operation member => familiar operation (List.mem_append_left _ member))
        (fun operation member => requested operation (List.mem_append_left _ member)) every
      have listed := familiar (.round plan input g)
        (List.mem_append_right made List.mem_cons_self)
      exact kept.toKeptByServices.place_all plan _
        (fun row member => listed row.1 (List.of_mem_zip (List.mem_of_mem_take member)).1) before

end Node.KeptByOperations
end EdgePlacement
