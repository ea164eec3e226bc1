import EdgePlacement.Proofs.Network.Changes

/-!
# What operations leave alone

Two topologies have the same layout when they become equal by a reset: they agree in everything but
usage, hosted services and used bandwidth. On a well-formed topology no operation changes the
layout.
-/

namespace EdgePlacement

open Relation

set_option autoImplicit false

variable {α : Type} [Quantity α] {request : Resources α → Prop} {bandwidth : α → Prop}

/-! ## Steps -/

theorem Node.reserve_keeps_layout {n n' : Node α} {needs : Resources α}
    (fits : n.reserve? needs = some n') : n'.reset = n.reset := by
  unfold Node.reserve? at fits
  split at fits
  · cases fits
    rfl
  · cases fits

theorem Node.deploy_cases {n n' : Node α} {service : Service α}
    (fits : n.deploy? service = some n') :
    n.hosts service.name = true ∧ n' = n ∨
      n.hosts service.name = false ∧ n.canHost service.requirements = true ∧
        n' = { n with
          usage := n.usage + service.requirements
          hosted := n.hosted ++ [service.name] } := by
  unfold Node.deploy? Node.reserve? at fits
  split_ifs at fits with hosted room
  · cases fits
    exact Or.inl ⟨hosted, rfl⟩
  · cases fits
    exact Or.inr ⟨Bool.eq_false_iff.mpr hosted, room, rfl⟩
  · cases fits

theorem Node.deploy_keeps_layout {n n' : Node α} {service : Service α}
    (fits : n.deploy? service = some n') : n'.reset = n.reset := by
  rcases Node.deploy_cases fits with ⟨-, rfl⟩ | ⟨-, -, rfl⟩ <;> rfl

theorem Node.undeploy_keeps_layout (n : Node α) (service : Service α) :
    (n.undeploy service).reset = n.reset := by
  unfold Node.undeploy
  split <;> rfl

theorem Link.reserve_keeps_layout {l l' : Link α} {width : α}
    (fits : l.reserve? width = some l') : l'.reset = l.reset := by
  unfold Link.reserve? at fits
  split at fits
  · cases fits
  · cases fits
    rfl

theorem node_step_keeps_layout {n n' : Node α} (step : NodeStep request n n') :
    n'.reset = n.reset := by
  cases step with
  | stay => rfl
  | reserve _ needs _ fits => exact Node.reserve_keeps_layout fits
  | release => rfl
  | deploy _ service _ fits => exact Node.deploy_keeps_layout fits
  | undeploy service => exact Node.undeploy_keeps_layout n service
  | reset => rfl

theorem link_step_keeps_layout {l l' : Link α} (step : LinkStep bandwidth l l') :
    l'.reset = l.reset := by
  cases step with
  | stay => rfl
  | reserve _ width _ fits => exact Link.reserve_keeps_layout fits
  | release => rfl
  | reset => rfl

/-! ## Changes -/

namespace Topology

theorem reset_node_names (t : Topology α) : t.resetUsage.nodeNames = t.nodeNames :=
  List.map_map

theorem reset_link_ids (t : Topology α) :
    t.resetUsage.links.map (·.id) = t.links.map (·.id) :=
  List.map_map

theorem same_layout_node_names {t t' : Topology α} (same : t'.resetUsage = t.resetUsage) :
    t'.nodeNames = t.nodeNames := by
  rw [← reset_node_names t', same, reset_node_names]

theorem WellFormed.of_same_layout {t t' : Topology α} (wellFormed : t.WellFormed)
    (same : t'.resetUsage = t.resetUsage) : t'.WellFormed := by
  have names := same_layout_node_names same
  refine ⟨names ▸ wellFormed.names, ?_, ?_, ?_⟩
  · have index : t'.resetUsage.canonical = t.resetUsage.canonical := by rw [same]
    change t'.canonical = t.canonical at index
    rw [index, names]
    exact wellFormed.index
  · rw [← reset_link_ids t', same, reset_link_ids]
    exact wellFormed.ids
  · intro l member
    have moved : l.reset ∈ t.resetUsage.links := same ▸ List.mem_map_of_mem member
    obtain ⟨k, stored, reset⟩ := List.mem_map.mp moved
    have ends : k.reset.first = l.reset.first ∧ k.reset.second = l.reset.second := by
      rw [reset]
      exact ⟨rfl, rfl⟩
    change k.first = l.first ∧ k.second = l.second at ends
    rw [names, ← ends.1, ← ends.2]
    exact wellFormed.ends k stored

theorem node_change_keeps_layout {t t' : Topology α} (wellFormed : t.WellFormed)
    (change : NodeChange request t t') : t'.resetUsage = t.resetUsage := by
  have replaced : ∀ f : Node α → Node α, (∀ n ∈ t.nodes, (f n).reset = n.reset) →
      ({ t with nodes := t.nodes.map f } : Topology α).resetUsage = t.resetUsage := by
    intro f kept
    unfold resetUsage
    rw [List.map_map]
    congr 1
    exact List.map_congr_left kept
  cases change with
  | named name f steps =>
      refine replaced _ fun n stored => ?_
      split_ifs with named
      · obtain ⟨origin, member, sameName, step⟩ := steps n stored named
        have origin_eq := wellFormed.node_unique member stored (sameName.trans named.symm)
        exact node_step_keeps_layout (origin_eq ▸ step)
      · rfl
  | undeployed service =>
      exact replaced _ fun n _ => Node.undeploy_keeps_layout n service

theorem link_change_keeps_layout {t t' : Topology α} (wellFormed : t.WellFormed)
    (change : LinkChange bandwidth t t') : t'.resetUsage = t.resetUsage := by
  cases change with
  | named id f steps =>
      unfold resetUsage updateLink
      rw [List.map_map]
      congr 1
      refine List.map_congr_left fun l stored => ?_
      rw [Function.comp_apply]
      split_ifs with named
      · obtain ⟨origin, member, sameId, step⟩ := steps l stored named
        have origin_eq := wellFormed.link_unique member stored (sameId.trans named.symm)
        exact link_step_keeps_layout (origin_eq ▸ step)
      · rfl

theorem reset_twice (t : Topology α) : t.resetUsage.resetUsage = t.resetUsage := by
  unfold resetUsage
  rw [List.map_map, List.map_map]
  rfl

theorem change_keeps_layout {t t' : Topology α} (wellFormed : t.WellFormed)
    (change : Change request bandwidth t t') : t'.resetUsage = t.resetUsage := by
  cases change with
  | node change => exact node_change_keeps_layout wellFormed change
  | link change => exact link_change_keeps_layout wellFormed change
  | reset => exact reset_twice t

/-- Well-formedness is a matter of the layout, so each change finds it kept by those before it. -/
theorem changes_keep_layout {t t' : Topology α} (wellFormed : t.WellFormed)
    (changes : ReflTransGen (Change request bandwidth) t t') : t'.resetUsage = t.resetUsage := by
  induction changes with
  | refl => rfl
  | tail _ change ih =>
      rw [change_keeps_layout (wellFormed.of_same_layout ih) change, ih]

end Topology
end EdgePlacement
