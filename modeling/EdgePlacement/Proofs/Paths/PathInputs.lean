import EdgePlacement.Network.Paths
import EdgePlacement.Proofs.Network.WellFormed
import EdgePlacement.Proofs.Text.NameOrder

/-!
# What a path is found from

A query for a path reads the names of the nodes, the tolerance, and of the preferred links no more
than their latencies. Topologies that agree in these find the same sequence of nodes; and the links
along it are the same in every respect in which the preferred links are.
-/

namespace EdgePlacement.Topology

open EdgePlacement.Text

set_option autoImplicit false

variable {α β : Type} [Quantity α] {t t' : Topology α}

def SameOffers (view : Link α → β) (t t' : Topology α) : Prop :=
  ∀ a b, (t'.preferredLink? a b).map view = (t.preferredLink? a b).map view

omit [Quantity α] in
theorem has_node_congr (names : sortNames t'.nodeNames = sortNames t.nodeNames) (name : String) :
    t'.hasNode name = t.hasNode name := by
  rw [Bool.eq_iff_iff, has_node_iff, has_node_iff, ← mem_sort_names_iff, names, mem_sort_names_iff]

theorem SameOffers.imp {γ : Type} {view : Link α → β} {view' : Link α → γ}
    (same : SameOffers view t t') (implied : ∀ l k : Link α, view l = view k → view' l = view' k) :
    SameOffers view' t t' := by
  intro a b
  have agree := same a b
  cases left : t'.preferredLink? a b with
  | none =>
      cases right : t.preferredLink? a b with
      | none => rfl
      | some k => simp [left, right] at agree
  | some l =>
      cases right : t.preferredLink? a b with
      | none => simp [left, right] at agree
      | some k =>
          rw [left, right] at agree
          exact congrArg some (implied l k (Option.some.inj agree))

theorem routing_graph_congr {weigh : Link α → β}
    (names : sortNames t'.nodeNames = sortNames t.nodeNames) (same : SameOffers weigh t t') :
    t'.routingGraph weigh = t.routingGraph weigh := by
  have arcs : ∀ a b, (t'.preferredLink? a b).map (fun l => (⟨a, b, weigh l⟩ : Arc β)) =
      (t.preferredLink? a b).map fun l => ⟨a, b, weigh l⟩ := by
    intro a b
    have mapped := congrArg (Option.map fun cost => (⟨a, b, cost⟩ : Arc β)) (same a b)
    simpa [Option.map_map, Function.comp_def] using mapped
  unfold routingGraph
  simp only [names, arcs]

theorem neighbour_names_congr {view : Link α → β}
    (names : sortNames t'.nodeNames = sortNames t.nodeNames) (same : SameOffers view t t')
    (name : String) : t'.neighbourNames name = t.neighbourNames name := by
  have joined : ∀ other, (t'.preferredLink? name other).isSome =
      (t.preferredLink? name other).isSome := by
    intro other
    rw [← Option.isSome_map (f := view), same, Option.isSome_map]
  unfold neighbourNames
  simp only [names, joined]

theorem links_along_congr {view : Link α → β} (same : SameOffers view t t') (path : List String) :
    (t'.linksAlong path).map view = (t.linksAlong path).map view := by
  unfold linksAlong
  rw [List.map_filterMap, List.map_filterMap]
  congr 1
  funext step
  exact same step.1 step.2

section Queries

variable (names : sortNames t'.nodeNames = sortNames t.nodeNames)
  (tolerance : t'.tieTolerance = t.tieTolerance)

include names in
theorem hop_graph_congr {view : Link α → β} (same : SameOffers view t t') :
    t'.hopGraph = t.hopGraph :=
  routing_graph_congr names (same.imp fun _ _ _ => rfl)

variable [PathChoice α]

include names tolerance in
theorem name_path_congr (latencies : SameOffers (·.latency) t t') (a b : String)
    (weight : PathWeight) : t'.namePath? a b weight = t.namePath? a b weight := by
  have hops := hop_graph_congr names latencies
  have fewest : t'.fewestHops? a b = t.fewestHops? a b := by
    unfold fewestHops?
    rw [hops]
  have least : t'.leastLatency? a b = t.leastLatency? a b := by
    unfold leastLatency? latencyGraph latencyRule
    rw [routing_graph_congr names latencies, tolerance]
  have choices : t'.latencyGraph = t.latencyGraph := routing_graph_congr names latencies
  cases weight with
  | hops => simp only [namePath?, fewest]
  | latency => simp only [namePath?, fewest, least, hops, tolerance, choices]

include names tolerance in
/-- The same path is found, link by link, as far as the preferred links look the same. -/
theorem find_path_congr {view : Link α → β} (same : SameOffers view t t')
    (latencies : SameOffers (·.latency) t t') (a b weight : String) :
    (t'.findPath a b weight).map (Option.map (List.map view)) =
      (t.findPath a b weight).map (Option.map (List.map view)) := by
  unfold findPath
  simp only [has_node_congr names, name_path_congr names tolerance latencies]
  cases PathWeight.ofName? weight with
  | none => rfl
  | some weight =>
      dsimp only
      split_ifs with unknown stays
      · rfl
      · rfl
      · cases t.namePath? a b weight with
        | error fault => rfl
        | ok path =>
            cases path with
            | none => rfl
            | some names =>
                simp only [Except.map, Option.map_some]
                rw [links_along_congr same]

end Queries

end EdgePlacement.Topology
