import Mathlib.Algebra.Order.BigOperators.Group.List
import Mathlib.Algebra.Order.Ring.Rat
import EdgePlacement.Proofs.Paths.FirstTied
import EdgePlacement.Proofs.Paths.PreferredLinks

/-!
# Routes and chains of links

A chain goes along any links, parallel ones and loops included. A route goes along preferred links
only; routes are the walks of the routing graph. No chain has a lower latency than every route:
loops can be left out, and each link can give way to the preferred one beside it.
-/

namespace EdgePlacement

open EdgePlacement.Text EdgePlacement.Graph

set_option autoImplicit false

/-- A walk from node to node with the links it takes, each of which carries the traffic of its
step. -/
inductive Trail {α : Type} (carries : String → String → Link α → Prop) :
    String → String → List String → List (Link α) → Prop where
  | stay (node : String) : Trail carries node node [node] []
  | step {here next goal : String} {names : List String} {links : List (Link α)} (l : Link α)
      (carried : carries here next l) (rest : Trail carries next goal names links) :
      Trail carries here goal (here :: names) (l :: links)

namespace Trail

variable {α : Type} {carries : String → String → Link α → Prop} {here goal : String}
  {names : List String} {links : List (Link α)}

theorem starts_here (trail : Trail carries here goal names links) :
    ∃ tail, names = here :: tail := by
  cases trail with
  | stay => exact ⟨[], rfl⟩
  | step _ _ rest => exact ⟨_, rfl⟩

theorem leaves_start (trail : Trail carries here goal names links) (elsewhere : here ≠ goal) :
    ∃ next l, carries here next l := by
  cases trail with
  | stay => exact absurd rfl elsewhere
  | step l carried _ => exact ⟨_, l, carried⟩

theorem imp {carries' : String → String → Link α → Prop}
    (trail : Trail carries here goal names links)
    (implied : ∀ a b l, carries a b l → carries' a b l) :
    Trail carries' here goal names links := by
  induction trail with
  | stay node => exact .stay node
  | step l carried _ ih => exact .step l (implied _ _ l carried) ih

theorem carries_taken (trail : Trail carries here goal names links) {l : Link α}
    (taken : l ∈ links) : ∃ a ∈ names, ∃ b ∈ names, carries a b l := by
  induction trail with
  | stay => cases taken
  | step first carried rest ih =>
      obtain ⟨tail, visited⟩ := rest.starts_here
      rcases List.mem_cons.mp taken with rfl | later
      · exact ⟨_, List.mem_cons_self, _, by simp [visited], carried⟩
      · obtain ⟨a, memberA, b, memberB, carried'⟩ := ih later
        exact ⟨a, List.mem_cons_of_mem _ memberA, b, List.mem_cons_of_mem _ memberB, carried'⟩

theorem prolonged {next : String} (trail : Trail carries here goal names links) (l : Link α)
    (carried : carries goal next l) :
    Trail carries here next (names ++ [next]) (links ++ [l]) := by
  induction trail with
  | stay node => exact .step l carried (.stay next)
  | step first carried' _ ih => exact .step first carried' (ih carried)

theorem reversed (trail : Trail carries here goal names links)
    (bothWays : ∀ a b l, carries a b l → carries b a l) :
    Trail carries goal here names.reverse links.reverse := by
  induction trail with
  | stay node => exact .stay node
  | step l carried _ ih =>
      rw [List.reverse_cons, List.reverse_cons]
      exact ih.prolonged l (bothWays _ _ l carried)

theorem onward (trail : Trail carries here goal names links) {node : String}
    (visited : node ∈ names) :
    ∃ onwardNames onwardLinks, Trail carries node goal onwardNames onwardLinks ∧
      onwardLinks <:+ links := by
  induction trail with
  | stay here =>
      obtain rfl : node = here := by simpa using visited
      exact ⟨_, _, .stay node, List.suffix_refl _⟩
  | step l carried rest ih =>
      rcases List.mem_cons.mp visited with rfl | later
      · exact ⟨_, _, .step l carried rest, List.suffix_refl _⟩
      · obtain ⟨onwardNames, onwardLinks, onwardTrail, suffix⟩ := ih later
        exact ⟨onwardNames, onwardLinks, onwardTrail, suffix.trans (List.suffix_cons _ _)⟩

/-- A trail of the fewest links visits no node again: what lies between could be left out. -/
theorem nodup_of_fewest (trail : Trail carries here goal names links)
    (fewest : ∀ others otherLinks, Trail carries here goal others otherLinks →
      links.length ≤ otherLinks.length) : names.Nodup := by
  induction trail with
  | stay node => exact List.nodup_singleton node
  | @step here next goal names links l carried rest ih =>
      have fewestRest : ∀ others otherLinks, Trail carries next goal others otherLinks →
          links.length ≤ otherLinks.length := by
        intro others otherLinks other
        have longer := fewest _ _ (.step l carried other)
        simpa using longer
      refine List.nodup_cons.mpr ⟨fun again => ?_, ih fewestRest⟩
      obtain ⟨_, onwardLinks, onwardTrail, suffix⟩ := rest.onward again
      have shorter := suffix.length_le
      have least := fewest _ _ onwardTrail
      rw [List.length_cons] at least
      omega

end Trail

namespace Topology

section Carriers

variable {α : Type} [Quantity α] {t : Topology α} {κ : Type}

/-- The link that the topology prefers between two nodes carries their traffic. -/
def Carries (t : Topology α) (a b : String) (l : Link α) : Prop :=
  t.preferredLink? a b = some l

theorem links_along_trail {here goal : String} {names : List String} {links : List (Link α)}
    (trail : Trail t.Carries here goal names links) : t.linksAlong names = links := by
  induction trail with
  | stay => rfl
  | step l carried rest ih =>
      obtain ⟨tail, rfl⟩ := rest.starts_here
      unfold linksAlong at ih ⊢
      rw [List.tail_cons, List.zip_cons_cons, List.filterMap_cons]
      dsimp only
      rw [carried, ← ih]
      rfl

/-! ## The routing graph -/

theorem routing_arc_carried {weigh : Link α → κ} {arc : Arc κ}
    (member : arc ∈ (t.routingGraph weigh).arcs) :
    ∃ l, t.Carries arc.source arc.target l ∧ arc.cost = weigh l := by
  unfold routingGraph at member
  simp only [List.mem_flatMap, List.mem_filterMap, Option.map_eq_some_iff] at member
  obtain ⟨a, -, b, -, l, found, rfl⟩ := member
  exact ⟨l, found, rfl⟩

theorem mem_routing_arcs_iff (wellFormed : t.WellFormed) (weigh : Link α → κ) (arc : Arc κ) :
    arc ∈ (t.routingGraph weigh).arcs ↔
      ∃ l, t.Carries arc.source arc.target l ∧ arc.cost = weigh l := by
  refine ⟨routing_arc_carried, fun ⟨l, carried, cost⟩ => ?_⟩
  obtain ⟨source, target⟩ := preferred_link_nodes wellFormed carried
  unfold routingGraph
  simp only [List.mem_flatMap, List.mem_filterMap, mem_sort_names_iff, Option.map_eq_some_iff]
  refine ⟨arc.source, source, arc.target, target, l, carried, ?_⟩
  rw [← cost]

theorem routing_arcs_ascend (wellFormed : t.WellFormed) (weigh : Link α → κ) :
    (t.routingGraph weigh).arcs.Pairwise fun a b => a.source = b.source → a.target < b.target := by
  have ascending := sort_names_ascending wellFormed.names_distinct
  unfold routingGraph
  rw [List.pairwise_flatMap]
  constructor
  · intro a _
    refine List.Pairwise.filterMap _ ?_ ascending
    intro b c below arc fromB arc' fromC _
    obtain ⟨l, -, rfl⟩ := Option.map_eq_some_iff.mp fromB
    obtain ⟨l', -, rfl⟩ := Option.map_eq_some_iff.mp fromC
    exact below
  · refine ascending.imp ?_
    intro a b below arc fromA arc' fromB same
    obtain ⟨_, -, foundA⟩ := List.mem_filterMap.mp fromA
    obtain ⟨_, -, foundB⟩ := List.mem_filterMap.mp fromB
    obtain ⟨l, -, rfl⟩ := Option.map_eq_some_iff.mp foundA
    obtain ⟨l', -, rfl⟩ := Option.map_eq_some_iff.mp foundB
    exact absurd same below.ne

theorem routing_graph_loopless (weigh : Link α → κ) (arc : Arc κ)
    (member : arc ∈ (t.routingGraph weigh).arcs) : arc.source ≠ arc.target := by
  obtain ⟨l, carried, -⟩ := routing_arc_carried member
  exact (preferred_link_ends carried).1

variable [AddCommMonoid κ]

theorem routing_graph_regular [LinearOrder κ] (wellFormed : t.WellFormed) (weigh : Link α → κ)
    (nonneg : ∀ l ∈ t.links, 0 ≤ weigh l) : (t.routingGraph weigh).Regular where
  nonneg arc member := by
    obtain ⟨l, carried, cost⟩ := routing_arc_carried member
    rw [cost]
    exact nonneg l (preferred_link_between carried).1
  closed arc member := by
    obtain ⟨l, carried, -⟩ := routing_arc_carried member
    obtain ⟨source, target⟩ := preferred_link_nodes wellFormed carried
    exact ⟨(mem_sort_names_iff _ _).mpr source, (mem_sort_names_iff _ _).mpr target⟩
  loopless := routing_graph_loopless weigh
  ascending vertex := by
    refine ((routing_arcs_ascend wellFormed weigh).filter _).imp_of_mem ?_
    intro arc arc' outgoing outgoing' ascends
    have source : arc.source = vertex := by simpa using List.of_mem_filter outgoing
    have source' : arc'.source = vertex := by simpa using List.of_mem_filter outgoing'
    exact ascends (source.trans source'.symm)

theorem walk_iff_trail (wellFormed : t.WellFormed) (weigh : Link α → κ) (here goal : String)
    (names : List String) (cost : κ) :
    Walk (t.routingGraph weigh) here goal names cost ↔
      ∃ links, Trail t.Carries here goal names links ∧ cost = (links.map weigh).sum := by
  constructor
  · intro walk
    induction walk with
    | stay node => exact ⟨[], .stay node, rfl⟩
    | step arc member leaves _ ih =>
        obtain ⟨l, carried, weighed⟩ := routing_arc_carried member
        obtain ⟨links, trail, rfl⟩ := ih
        refine ⟨l :: links, .step l (leaves ▸ carried) trail, ?_⟩
        rw [List.map_cons, List.sum_cons, weighed]
  · rintro ⟨links, trail, rfl⟩
    induction trail with
    | stay node => exact .stay node
    | @step here next _ _ _ l carried _ ih =>
        rw [List.map_cons, List.sum_cons]
        refine .step ⟨here, next, weigh l⟩ ?_ rfl ih
        exact (mem_routing_arcs_iff wellFormed weigh _).mpr ⟨l, carried, rfl⟩

end Carriers

/-! ## Latencies of routes and chains -/

variable {t : Topology Rat}

abbrev Route (t : Topology Rat) : String → String → List String → List (Link Rat) → Prop :=
  Trail t.Preferred

theorem trail_iff_route (wellFormed : t.WellFormed) {a b : String} {names : List String}
    {links : List (Link Rat)} : Trail t.Carries a b names links ↔ t.Route a b names links := by
  constructor
  · exact fun trail => trail.imp fun a b l => (preferred_link_iff wellFormed a b l).mp
  · exact fun route => route.imp fun a b l => (preferred_link_iff wellFormed a b l).mpr

def totalLatency (links : List (Link Rat)) : Rat :=
  (links.map (·.latency)).sum

theorem total_latency_cons (l : Link Rat) (links : List (Link Rat)) :
    totalLatency (l :: links) = l.latency + totalLatency links :=
  List.sum_cons

theorem total_latency_nonneg (nonneg : ∀ l ∈ t.links, 0 ≤ l.latency) {a b : String}
    {names : List String} {links : List (Link Rat)} (trail : Trail t.Carries a b names links) :
    0 ≤ totalLatency links := by
  apply List.sum_nonneg
  intro latency member
  obtain ⟨l, taken, rfl⟩ := List.mem_map.mp member
  obtain ⟨_, -, _, -, carried⟩ := trail.carries_taken taken
  exact nonneg l (preferred_link_between carried).1

/-- A walk through any links with its total latency. -/
inductive Chain (t : Topology Rat) : String → String → Rat → Prop where
  | stay (node : String) : Chain t node node 0
  | step {here next goal : String} {total : Rat} (l : Link Rat) (stored : l ∈ t.links)
      (joins : l.joins here next = true) (rest : Chain t next goal total) :
      Chain t here goal (l.latency + total)

theorem Route.is_chain {here goal : String} {names : List String} {links : List (Link Rat)}
    (route : t.Route here goal names links) : t.Chain here goal (totalLatency links) := by
  induction route with
  | stay node => exact .stay node
  | step l preferred _ ih =>
      rw [total_latency_cons]
      exact .step l preferred.stored preferred.joins ih

/-- Beside every chain there is a route that costs no more. -/
theorem Chain.has_route (nonneg : ∀ l ∈ t.links, 0 ≤ l.latency) {here goal : String} {total : Rat}
    (chain : t.Chain here goal total) :
    ∃ names links, t.Route here goal names links ∧ totalLatency links ≤ total := by
  induction chain with
  | stay node => exact ⟨[node], [], .stay node, le_rfl⟩
  | @step here next _ total l stored joins _ ih =>
      obtain ⟨names, links, route, less⟩ := ih
      by_cases proper : l.first = l.second
      · have stays : here = next := by
          rcases (l.joins_iff here next).mp joins with ⟨rfl, rfl⟩ | ⟨rfl, rfl⟩
          · exact proper
          · exact proper.symm
        subst stays
        exact ⟨names, links, route, less.trans (le_add_of_nonneg_left (nonneg l stored))⟩
      · obtain ⟨k, found⟩ := preferred_link_exists stored proper joins
        have preferred := preferred_link_preferred found
        have cheaper := Link.precedes_latency (preferred.least l stored proper joins)
        refine ⟨here :: names, k :: links, .step k preferred route, ?_⟩
        rw [total_latency_cons]
        exact add_le_add cheaper less

end Topology
end EdgePlacement
