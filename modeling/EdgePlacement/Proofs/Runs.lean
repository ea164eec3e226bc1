import EdgePlacement.Proofs.Placement.Placing

/-!
# Runs of operations

Every operation that a topology offers, in any order and with any outcome. An operation that is
refused or ends in a fault leaves the topology as far as it came, and the next one goes on from
there.
-/

namespace EdgePlacement

open Relation

set_option autoImplicit false

/-- An operation with its arguments. The sampler, the state of its generator and the solver are
arguments as well, so that any draws and any solver answers can occur. -/
inductive Operation (α : Type) : Type 1 where
  | reserve (node : String) (request : Resources α)
  | release (node : String) (request : Resources α)
  | deploy (node : String) (service : Service α)
  | undeploy (node : String) (service : Service α)
  | resetNode (node : String)
  | reserveLink (link : String) (bandwidth : α)
  | releaseLink (link : String) (bandwidth : α)
  | resetLink (link : String)
  | reservePath (path : List (Link α)) (bandwidth : α)
  | routeDemands (demands : List (Demand α)) (assignments : Assignments) (weight : String)
  | round {σ δ : Type} (plan : RoundingPlan α σ δ) (input : RoundingInput α) (generator : σ)
  | solve {σ δ : Type} (planner : Planner α σ δ) (workload : Workload α) (settings : Settings α)
      (skippedRecords : Nat)
  | resetUsage

namespace Operation

variable {α : Type} [Quantity α]

/-- Every request of the operation and every bandwidth in it is admitted. -/
def Admitted (request : Resources α → Prop) (bandwidth : α → Prop) : Operation α → Prop
  | reserve _ needs => request needs
  | release _ needs => request needs
  | deploy _ service => request service.requirements
  | undeploy _ service => request service.requirements
  | reserveLink _ width => bandwidth width
  | releaseLink _ width => bandwidth width
  | reservePath _ width => bandwidth width
  | routeDemands demands _ _ => ∀ demand ∈ demands, bandwidth demand.bandwidth
  | round _ input _ =>
      (∀ service ∈ input.services, request service.requirements) ∧
        ∀ demand ∈ input.demands, bandwidth demand.bandwidth
  | solve _ workload _ _ =>
      (∀ service ∈ workload.services, request service.requirements) ∧
        ∀ demand ∈ workload.demands, bandwidth demand.bandwidth
  | resetNode _ | resetLink _ | resetUsage => True

variable {request : Resources α → Prop} {bandwidth : α → Prop}

theorem node_operation_changes (t : Topology α) (name : String) {f : Node α → Node α}
    (step : ∀ n, NodeStep request n (f n)) :
    ReflTransGen (Change request bandwidth) t (t.updateNode name f) :=
  .single (.node (.named t name f fun n stored named => ⟨n, stored, named, step n⟩))

theorem link_operation_changes (t : Topology α) (id : String) {f : Link α → Link α}
    (step : ∀ l, LinkStep bandwidth l (f l)) :
    ReflTransGen (Change request bandwidth) t (t.updateLink id f) :=
  .single (.link (.named t id f fun l stored named => ⟨l, stored, named, step l⟩))

variable [Summation α] [PathChoice α]

/-- The topology that the operation leaves behind, be it after a success, a refusal or a fault. -/
def apply (t : Topology α) : Operation α → Topology α
  | reserve node request => t.updateNode node fun n => (n.reserve? request).getD n
  | release node request => t.updateNode node (·.release request)
  | deploy node service => t.updateNode node fun n => (n.deploy? service).getD n
  | undeploy node service => t.updateNode node (·.undeploy service)
  | resetNode node => t.updateNode node Node.reset
  | reserveLink link bandwidth => t.updateLink link fun l => (l.reserve? bandwidth).getD l
  | releaseLink link bandwidth => t.updateLink link (·.release bandwidth)
  | resetLink link => t.updateLink link Link.reset
  | reservePath path bandwidth => (t.reservePath path bandwidth).1
  | routeDemands demands assignments weight => (t.routeDemands demands assignments weight).1
  | round plan input generator => (roundFractions plan input ⟨t, generator⟩).1.topology
  | solve planner workload settings skippedRecords =>
      (planner.run t workload settings skippedRecords).1
  | resetUsage => t.resetUsage

def run (operations : List (Operation α)) (t : Topology α) : Topology α :=
  operations.foldl apply t

theorem apply_changes (t : Topology α) (operation : Operation α)
    (admitted : operation.Admitted request bandwidth) :
    ReflTransGen (Change request bandwidth) t (operation.apply t) := by
  cases operation with
  | reserve node needs =>
      refine node_operation_changes t node fun n => ?_
      cases reserved : n.reserve? needs with
      | none => exact .stay n
      | some n' => exact .reserve n n' needs admitted reserved
  | release node needs =>
      exact node_operation_changes t node fun n => .release n needs admitted
  | deploy node service =>
      refine node_operation_changes t node fun n => ?_
      cases deployed : n.deploy? service with
      | none => exact .stay n
      | some n' => exact .deploy n n' service admitted deployed
  | undeploy node service =>
      exact node_operation_changes t node fun n => .undeploy n service admitted
  | resetNode node => exact node_operation_changes t node .reset
  | reserveLink link width =>
      refine link_operation_changes t link fun l => ?_
      cases reserved : l.reserve? width with
      | none => exact .stay l
      | some l' => exact .reserve l l' width admitted reserved
  | releaseLink link width =>
      exact link_operation_changes t link fun l => .release l width admitted
  | resetLink link => exact link_operation_changes t link .reset
  | reservePath path width =>
      have widthAdmitted : bandwidth width := admitted
      exact link_changes_are_changes (Topology.reserve_path_changes widthAdmitted path t)
  | routeDemands demands assignments weight =>
      exact link_changes_are_changes
        (Topology.route_demands_changes t demands assignments weight admitted)
  | round plan input generator =>
      exact round_changes plan input ⟨t, generator⟩ admitted.1 admitted.2
  | solve planner workload settings skippedRecords =>
      exact run_changes planner t workload settings skippedRecords admitted.1 admitted.2
  | resetUsage => exact .single (.reset t)

theorem run_changes (operations : List (Operation α)) (t : Topology α)
    (admitted : ∀ operation ∈ operations, operation.Admitted request bandwidth) :
    ReflTransGen (Change request bandwidth) t (run operations t) := by
  induction operations generalizing t with
  | nil => exact .refl
  | cons operation rest ih =>
      have first := apply_changes t operation (admitted operation List.mem_cons_self)
      exact first.trans (ih _ fun later member => admitted later (List.mem_cons_of_mem _ member))

theorem run_keeps_layout (operations : List (Operation α)) {t : Topology α}
    (wellFormed : t.WellFormed) : (run operations t).resetUsage = t.resetUsage := by
  have made : ReflTransGen (Change (fun _ => True) fun _ => True) t (run operations t) := by
    apply run_changes
    intro operation _
    cases operation <;> simp [Admitted]
  exact Topology.changes_keep_layout wellFormed made

end Operation
end EdgePlacement
