import EdgePlacement.Proofs.Network.Bandwidth
import EdgePlacement.Proofs.Placement.Accounting

/-!
# Refused demands stay refused

When bandwidth is only ever taken, a link that has no room for a demand has none later either, and
the demand would take the same path. Routing only takes: what a refused demand has charged is given
back exactly, and every other counter stays or grows.
-/

namespace EdgePlacement

set_option autoImplicit false

/-! ## Growing usage of links -/

namespace Topology

/-- The layout as before, and as much usage on each link or more. -/
structure LinksGrow (t t' : Topology Rat) : Prop where
  layout : t'.resetUsage = t.resetUsage
  links : ∀ l ∈ t.links, ∃ l' ∈ t'.links, l'.id = l.id ∧ l.used ≤ l'.used

/-- On the path between two nodes some link has no room for the bandwidth. -/
def Blocked (t : Topology Rat) (a b weight : String) (bandwidth : Rat) : Prop :=
  ∃ path, t.findPath a b weight = .ok (some path) ∧ ∃ l ∈ path, l.capacity < l.used + bandwidth

theorem LinksGrow.refl (t : Topology Rat) : t.LinksGrow t :=
  ⟨rfl, fun l stored => ⟨l, stored, rfl, le_rfl⟩⟩

theorem LinksGrow.trans {t t' t'' : Topology Rat} (first : t.LinksGrow t')
    (second : t'.LinksGrow t'') : t.LinksGrow t'' := by
  refine ⟨second.layout.trans first.layout, fun l stored => ?_⟩
  obtain ⟨l', stored', same, less⟩ := first.links l stored
  obtain ⟨l'', stored'', same', less'⟩ := second.links l' stored'
  exact ⟨l'', stored'', same'.trans same, less.trans less'⟩

theorem charged_grows (t : Topology Rat) (ids : List String) {bandwidth : Rat}
    (nonneg : 0 ≤ bandwidth) : t.LinksGrow (t.charged ids bandwidth) := by
  refine ⟨t.charged_keeps_layout ids bandwidth, fun l stored => ?_⟩
  refine ⟨l.charged ids bandwidth, List.mem_map_of_mem stored, l.charged_id ids bandwidth, ?_⟩
  unfold Link.charged
  split_ifs
  · exact le_add_of_nonneg_right nonneg
  · exact le_rfl

/-- The path is the same one when more of its links is in use, and no link has regained room. -/
theorem Blocked.still_blocked {t t' : Topology Rat} (wellFormed : t.WellFormed)
    (grows : t.LinksGrow t') {a b weight : String} {bandwidth : Rat}
    (blocked : t.Blocked a b weight bandwidth) : t'.Blocked a b weight bandwidth := by
  have wellFormed' := wellFormed.of_same_layout grows.layout
  obtain ⟨path, found, l, onPath, full⟩ := blocked
  obtain ⟨answer, found', sameLinks⟩ := find_path_of_same_layout grows.layout found
  obtain ⟨path', rfl, resets⟩ := Option.map_eq_some_iff.mp sameLinks
  have counterpart : l.reset ∈ path'.map Link.reset := resets ▸ List.mem_map_of_mem onPath
  obtain ⟨k, onPath', sameReset⟩ := List.mem_map.mp counterpart
  have sameId : k.reset.id = l.reset.id := congrArg Link.id sameReset
  have sameCapacity : k.reset.capacity = l.reset.capacity := congrArg Link.capacity sameReset
  obtain ⟨l', stored', named, less⟩ :=
    grows.links l ((found_path_links wellFormed found).1 l onPath)
  obtain rfl : k = l' := wellFormed'.link_unique
    ((found_path_links wellFormed' found').1 k onPath') stored' (Eq.trans sameId named.symm)
  refine ⟨path', found', k, onPath', ?_⟩
  change k.capacity = l.capacity at sameCapacity
  rw [sameCapacity]
  exact full.trans_le (add_le_add_left less bandwidth)

end Topology

/-! ## Demands -/

namespace DemandRun

variable {assignments : Assignments} {weight : String} {t t' : Topology Rat}
  {demands : List (Demand Rat)} {outcomes : List RouteOutcome}

theorem links_grow (run : DemandRun assignments weight t demands outcomes t')
    (wellFormed : t.WellFormed) (nonneg : ∀ l ∈ t.links, 0 ≤ l.used)
    (bandwidths : ∀ demand ∈ demands, 0 ≤ demand.bandwidth) : t.LinksGrow t' := by
  induction run with
  | done t => exact .refl t
  | @next t _ _ demand _ outcome _ step _ ih =>
      obtain rfl := Topology.route_demand_charges wellFormed nonneg step
      have bandwidthNonneg := bandwidths demand List.mem_cons_self
      have grows := t.charged_grows outcome.links bandwidthNonneg
      apply grows.trans
      apply ih (wellFormed.of_same_layout grows.layout)
      · exact Topology.charged_nonneg nonneg outcome.links bandwidthNonneg
      · exact fun later member => bandwidths later (List.mem_cons_of_mem demand member)

/-- A demand that is refused for want of bandwidth is blocked then, and in the end. -/
theorem refused_demand_blocked (run : DemandRun assignments weight t demands outcomes t')
    (wellFormed : t.WellFormed) (nonneg : ∀ l ∈ t.links, 0 ≤ l.used)
    (bandwidths : ∀ demand ∈ demands, 0 ≤ demand.bandwidth) {i : Nat} {demand : Demand Rat}
    (listed : demands[i]? = some demand)
    (refused : outcomes[i]? = some (.failed RoutingFailure.insufficientBandwidth)) :
    ∃ a b, demand.Between assignments a b ∧ t'.Blocked a b weight demand.bandwidth := by
  induction run generalizing i with
  | done => cases listed
  | @next t _ _ first rest outcome _ step later ih =>
      cases i with
      | zero =>
          cases listed
          cases refused
          have grows := (DemandRun.next step later).links_grow wellFormed nonneg bandwidths
          have account := Topology.route_demand_step wellFormed step
          obtain ⟨a, b, path, hosts, found, full⟩ := account.insufficient_iff.mp rfl
          have blocked : t.Blocked a b weight demand.bandwidth := ⟨path, found, full⟩
          exact ⟨a, b, hosts, blocked.still_blocked wellFormed grows⟩
      | succ i =>
          obtain rfl := Topology.route_demand_charges wellFormed nonneg step
          apply ih _ _ _ listed refused
          · exact wellFormed.of_same_layout (t.charged_keeps_layout _ _)
          · exact Topology.charged_nonneg nonneg _ (bandwidths first List.mem_cons_self)
          · exact fun later member => bandwidths later (List.mem_cons_of_mem first member)

end DemandRun
end EdgePlacement
