import Mathlib.Logic.Relation
import EdgePlacement.Placement.Routing
import EdgePlacement.Proofs.Network.WellFormed

/-!
# The changes that operations make

Every operation on a topology is a sequence of small changes: an operation on the nodes of one name,
an operation on the links of one id, a service taken off all nodes, a reset. What these changes
preserve is preserved by every operation, also by one that stops halfway. The requests and
bandwidths that occur are kept in view as predicates.
-/

namespace EdgePlacement

open Relation

set_option autoImplicit false

variable {α : Type} [Quantity α]

/-- One operation on a node, also one that is refused. -/
inductive NodeStep (admits : Resources α → Prop) : Node α → Node α → Prop where
  | stay (n : Node α) : NodeStep admits n n
  | reserve (n n' : Node α) (request : Resources α) (admitted : admits request)
      (fits : n.reserve? request = some n') : NodeStep admits n n'
  | release (n : Node α) (request : Resources α) (admitted : admits request) :
      NodeStep admits n (n.release request)
  | deploy (n n' : Node α) (service : Service α) (admitted : admits service.requirements)
      (fits : n.deploy? service = some n') : NodeStep admits n n'
  | undeploy (n : Node α) (service : Service α) (admitted : admits service.requirements) :
      NodeStep admits n (n.undeploy service)
  | reset (n : Node α) : NodeStep admits n n.reset

inductive LinkStep (admits : α → Prop) : Link α → Link α → Prop where
  | stay (l : Link α) : LinkStep admits l l
  | reserve (l l' : Link α) (bandwidth : α) (admitted : admits bandwidth)
      (fits : l.reserve? bandwidth = some l') : LinkStep admits l l'
  | release (l : Link α) (bandwidth : α) (admitted : admits bandwidth) :
      LinkStep admits l (l.release bandwidth)
  | reset (l : Link α) : LinkStep admits l l.reset

/-- The nodes of a name give way to what one step makes of nodes of that name. -/
inductive NodeChange (admits : Resources α → Prop) : Topology α → Topology α → Prop where
  | named (t : Topology α) (name : String) (f : Node α → Node α)
      (steps : ∀ n ∈ t.nodes, n.name = name →
        ∃ origin ∈ t.nodes, origin.name = name ∧ NodeStep admits origin (f n)) :
      NodeChange admits t (t.updateNode name f)
  | undeployed (t : Topology α) (service : Service α) (admitted : admits service.requirements) :
      NodeChange admits t (t.undeployEverywhere service)

inductive LinkChange (admits : α → Prop) : Topology α → Topology α → Prop where
  | named (t : Topology α) (id : String) (f : Link α → Link α)
      (steps : ∀ l ∈ t.links, l.id = id →
        ∃ origin ∈ t.links, origin.id = id ∧ LinkStep admits origin (f l)) :
      LinkChange admits t (t.updateLink id f)

inductive Change (request : Resources α → Prop) (bandwidth : α → Prop) :
    Topology α → Topology α → Prop where
  | node {t t' : Topology α} (change : NodeChange request t t') : Change request bandwidth t t'
  | link {t t' : Topology α} (change : LinkChange bandwidth t t') : Change request bandwidth t t'
  | reset (t : Topology α) : Change request bandwidth t t.resetUsage

theorem link_changes_are_changes {request : Resources α → Prop} {bandwidth : α → Prop}
    {t t' : Topology α} (changes : ReflTransGen (LinkChange bandwidth) t t') :
    ReflTransGen (Change request bandwidth) t t' :=
  changes.lift id fun _ _ => Change.link

/-! ## Links along a path -/

namespace Topology

variable {admits : α → Prop}

theorem release_link_change (t : Topology α) (id : String) {bandwidth : α}
    (admitted : admits bandwidth) :
    LinkChange admits t (t.updateLink id (·.release bandwidth)) :=
  .named t id _ fun l member named => ⟨l, member, named, .release l bandwidth admitted⟩

theorem release_links_changes (t : Topology α) (ids : List String) {bandwidth : α}
    (admitted : admits bandwidth) :
    ReflTransGen (LinkChange admits) t (t.releaseLinks ids bandwidth) := by
  induction ids generalizing t with
  | nil => exact .refl
  | cons id rest ih =>
      exact .head (release_link_change t id admitted)
        (ih (t.updateLink id (·.release bandwidth)))

theorem reserve_link_change (t : Topology α) (id : String) {bandwidth : α} {l reserved : Link α}
    (admitted : admits bandwidth) (found : t.link? id = some l)
    (fits : l.reserve? bandwidth = some reserved) :
    LinkChange admits t (t.updateLink id fun _ => reserved) := by
  obtain ⟨member, named⟩ := link_found found
  exact .named t id _ fun _ _ _ => ⟨l, member, named, .reserve l reserved bandwidth admitted fits⟩

theorem reserve_rest_changes {bandwidth : α} (admitted : admits bandwidth)
    (taken rest : List String) (t : Topology α) :
    ReflTransGen (LinkChange admits) t (reserveRest bandwidth taken rest t).1 := by
  induction rest generalizing taken t with
  | nil => exact .refl
  | cons id rest ih =>
      unfold reserveRest
      split
      · rename_i reserved granted
        obtain ⟨l, found, fits⟩ := Option.bind_eq_some_iff.mp granted
        exact .head (reserve_link_change t id admitted found fits) (ih _ _)
      · exact release_links_changes t taken admitted

theorem reserve_path_changes {bandwidth : α} (admitted : admits bandwidth) (path : List (Link α))
    (t : Topology α) :
    ReflTransGen (LinkChange admits) t (t.reservePath path bandwidth).1 :=
  reserve_rest_changes admitted [] _ t

theorem node_changes_keep_rest {request : Resources α → Prop} {t t' : Topology α}
    (changes : ReflTransGen (NodeChange request) t t') : t' = { t with nodes := t'.nodes } := by
  induction changes with
  | refl => rfl
  | tail _ change ih =>
      cases change with
      | named =>
          rw [ih]
          rfl
      | undeployed =>
          rw [ih]
          rfl

theorem link_changes_keep_nodes {t t' : Topology α}
    (changes : ReflTransGen (LinkChange admits) t t') :
    t'.nodes = t.nodes ∧ t'.tieTolerance = t.tieTolerance := by
  induction changes with
  | refl => exact ⟨rfl, rfl⟩
  | tail _ change ih =>
      cases change with
      | named => exact ih

/-! ## Routing -/

variable [PathChoice α]

theorem route_demand_changes (t : Topology α) (assignments : Assignments) (weight : String)
    (demand : Demand α) (admitted : admits demand.bandwidth) :
    ReflTransGen (LinkChange admits) t (t.routeDemand assignments weight demand).1 := by
  unfold routeDemand
  split
  · split
    · exact .refl
    · exact .refl
    · rename_i path _
      have changes := reserve_path_changes admitted path t
      split <;> rename_i reserved <;> rw [reserved] at changes <;> exact changes
  · exact .refl

theorem route_from_changes (assignments : Assignments) (weight : String) (index : Int)
    (demands : List (Demand α)) (t : Topology α)
    (admitted : ∀ demand ∈ demands, admits demand.bandwidth) :
    ReflTransGen (LinkChange admits) t (routeFrom assignments weight index demands t).1 := by
  induction demands generalizing index t with
  | nil => exact .refl
  | cons demand rest ih =>
      have first := route_demand_changes t assignments weight demand
        (admitted demand List.mem_cons_self)
      unfold routeFrom
      split <;> rename_i routed <;> rw [routed] at first
      · exact first
      · exact first.trans
          (ih _ _ fun later member => admitted later (List.mem_cons_of_mem _ member))

theorem route_demands_changes (t : Topology α) (demands : List (Demand α))
    (assignments : Assignments) (weight : String)
    (admitted : ∀ demand ∈ demands, admits demand.bandwidth) :
    ReflTransGen (LinkChange admits) t (t.routeDemands demands assignments weight).1 :=
  route_from_changes assignments weight 0 demands t admitted

theorem route_demand_keeps_nodes (t : Topology α) (assignments : Assignments) (weight : String)
    (demand : Demand α) :
    (t.routeDemand assignments weight demand).1.nodes = t.nodes ∧
      (t.routeDemand assignments weight demand).1.tieTolerance = t.tieTolerance := by
  have changes : ReflTransGen (LinkChange fun _ => True) t
      (t.routeDemand assignments weight demand).1 :=
    route_demand_changes t assignments weight demand trivial
  exact link_changes_keep_nodes changes

theorem route_demands_keep_nodes (t : Topology α) (demands : List (Demand α))
    (assignments : Assignments) (weight : String) :
    (t.routeDemands demands assignments weight).1.nodes = t.nodes := by
  have changes : ReflTransGen (LinkChange fun _ => True) t
      (t.routeDemands demands assignments weight).1 :=
    route_demands_changes t demands assignments weight fun _ _ => trivial
  exact (link_changes_keep_nodes changes).1

theorem routed_keeps_nodes {t t' : Topology α} {demands : List (Demand α)}
    {assignments : Assignments} {weight : String} {outcome : Except (Fault α) (Routing α)}
    (routed : t.routeDemands demands assignments weight = (t', outcome)) : t'.nodes = t.nodes := by
  have kept := t.route_demands_keep_nodes demands assignments weight
  rwa [routed] at kept

end Topology
end EdgePlacement
