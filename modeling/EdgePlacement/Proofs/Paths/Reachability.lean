import EdgePlacement.Proofs.Network.Layout
import EdgePlacement.Proofs.Paths.FoundPaths
import EdgePlacement.Proofs.Paths.SimplePaths

/-!
# Reachable nodes

Whether a path is found depends on the links alone, not on their latencies or counters: there is one
exactly where a chain of links leads, whatever the weight: whether there is any is settled by counts
of links, and these always compare.
-/

namespace EdgePlacement

open Relation

set_option autoImplicit false

variable {α : Type}

structure Topology.Joins (t : Topology α) (a b : String) (l : Link α) : Prop where
  stored : l ∈ t.links
  proper : l.first ≠ l.second
  joins : l.joins a b = true

/-- A chain of links leads from one node to the other; parallel links and loops are no matter. -/
def Topology.Connected (t : Topology α) : String → String → Prop :=
  ReflTransGen fun a b => ∃ l ∈ t.links, l.joins a b = true

namespace Trail

variable {carries : String → String → Link α → Prop} {here goal : String} {names : List String}
  {links : List (Link α)}

theorem visits_goal (trail : Trail carries here goal names links) : goal ∈ names := by
  induction trail with
  | stay => exact List.mem_cons_self
  | step _ _ _ ih => exact List.mem_cons_of_mem _ ih

/-- On a simple trail no link is needed exactly where the goal has been reached already. -/
theorem no_links_iff (trail : Trail carries here goal names links) (simple : names.Nodup) :
    links = [] ↔ here = goal := by
  cases trail with
  | stay => simp
  | step l carried rest =>
      have left := (List.nodup_cons.mp simple).1
      constructor
      · intro none
        cases none
      · intro same
        subst same
        exact absurd rest.visits_goal left

end Trail

namespace Topology

section Usage

variable {t t' : Topology α} [Quantity α]

theorem connected_reset_iff (t : Topology α) (a b : String) :
    t.resetUsage.Connected a b ↔ t.Connected a b := by
  have steps : (fun a b => ∃ l ∈ t.resetUsage.links, l.joins a b = true) =
      fun a b => ∃ l ∈ t.links, l.joins a b = true := by
    funext a b
    apply propext
    constructor
    · rintro ⟨l, member, joins⟩
      obtain ⟨k, stored, rfl⟩ := List.mem_map.mp member
      exact ⟨k, stored, joins⟩
    · rintro ⟨l, stored, joins⟩
      exact ⟨l.reset, List.mem_map_of_mem stored, joins⟩
  unfold Connected
  rw [steps]

theorem Connected.of_same_layout {a b : String} (connected : t.Connected a b)
    (same : t'.resetUsage = t.resetUsage) : t'.Connected a b := by
  rw [← connected_reset_iff, same, connected_reset_iff]
  exact connected

end Usage

/-! ## Trails -/

variable [Quantity α] {t : Topology α} {a b : String}

theorem trail_joins {names : List String} {links : List (Link α)}
    (trail : Trail t.Carries a b names links) : Trail t.Joins a b names links := by
  apply trail.imp
  intro here next l carried
  obtain ⟨stored, proper, joins⟩ := preferred_link_between carried
  exact ⟨stored, proper, joins⟩

theorem trail_connects {names : List String} {links : List (Link α)}
    (trail : Trail t.Carries a b names links) : t.Connected a b := by
  induction trail with
  | stay => exact .refl
  | step l carried _ ih =>
      obtain ⟨stored, -, joins⟩ := preferred_link_between carried
      exact .head ⟨l, stored, joins⟩ ih

/-- A chain is turned into a trail link by link: loops are left out, and others give way to the
preferred link beside them. -/
theorem Connected.has_trail (connected : t.Connected a b) :
    ∃ names links, Trail t.Carries a b names links := by
  induction connected using ReflTransGen.head_induction_on with
  | refl => exact ⟨[b], [], .stay b⟩
  | @head here next step _ ih =>
      obtain ⟨names, links, trail⟩ := ih
      obtain ⟨l, stored, joins⟩ := step
      by_cases proper : l.first = l.second
      · have stays : here = next := by
          rcases (l.joins_iff here next).mp joins with ⟨rfl, rfl⟩ | ⟨rfl, rfl⟩
          · exact proper
          · exact proper.symm
        subst stays
        exact ⟨names, links, trail⟩
      · obtain ⟨k, preferred⟩ := preferred_link_exists stored proper joins
        exact ⟨here :: names, k :: links, .step k preferred trail⟩

/-! ## The search -/

theorem fewest_hops_of_connected (wellFormed : t.WellFormed) (node : a ∈ t.nodeNames)
    (connected : t.Connected a b) : ∃ names, t.fewestHops? a b = some names := by
  obtain ⟨walked, taken, trail⟩ := connected.has_trail
  obtain ⟨names, _, found, -⟩ := fewest_hops_found wellFormed node trail
  exact ⟨names, found⟩

variable [PathChoice α]

theorem fewest_hops_of_no_name (weight : PathWeight) (missing : t.namePath? a b weight = .ok none) :
    t.fewestHops? a b = none := by
  cases weight with
  | hops => exact Except.ok.inj missing
  | latency =>
      unfold namePath? at missing
      dsimp only at missing
      split at missing
      · rename_i none
        exact none
      · split_ifs at missing
        cases missing
      · split at missing <;> cases missing

/-- A search that answers finds a path exactly where a chain of links leads. -/
theorem found_path_iff_connected (wellFormed : t.WellFormed) {weight : String}
    {path : Option (List (Link α))} (found : t.findPath a b weight = .ok path) :
    path.isSome = true ↔ t.Connected a b := by
  constructor
  · intro present
    obtain ⟨links, rfl⟩ := Option.isSome_iff_exists.mp present
    obtain ⟨names, trail, -⟩ := found_path_is_simple_trail wellFormed found
    exact trail_connects trail
  · intro connected
    by_contra absent
    obtain rfl := Option.not_isSome_iff_eq_none.mp absent
    unfold findPath at found
    split at found
    · cases found
    · rename_i weight _
      split_ifs at found with unknown same
      · cases found
      · have known : t.hasNode a = true ∧ t.hasNode b = true := by simpa using unknown
        obtain ⟨names, fewest⟩ :=
          fewest_hops_of_connected wellFormed ((has_node_iff t a).mp known.1) connected
        cases named : t.namePath? a b weight with
        | error fault =>
            rw [named] at found
            cases found
        | ok path =>
            rw [named] at found
            cases path with
            | some names => cases found
            | none =>
                rw [fewest_hops_of_no_name weight named] at fewest
                cases fewest

end Topology
end EdgePlacement
