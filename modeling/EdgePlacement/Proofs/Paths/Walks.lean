import Mathlib.Algebra.Order.Monoid.Defs
import Mathlib.Data.List.Nodup
import EdgePlacement.Network.PathSearch

/-!
# Walks in a weighted graph

A walk goes along arcs from its start to its goal, and may use an arc or a vertex again. With costs
that are not below zero, the stretch between two visits of a vertex can be left out: every walk has
a simple one that costs no more.
-/

namespace EdgePlacement.Graph

set_option autoImplicit false

variable {κ : Type} [AddCommMonoid κ]

/-- A walk with the vertices it visits and what it costs. -/
inductive Walk (g : Graph κ) : String → String → List String → κ → Prop where
  | stay (vertex : String) : Walk g vertex vertex [vertex] 0
  | step {here goal : String} {path : List String} {cost : κ} (arc : Arc κ) (member : arc ∈ g.arcs)
      (leaves : arc.source = here) (rest : Walk g arc.target goal path cost) :
      Walk g here goal (here :: path) (arc.cost + cost)

namespace Walk

variable {g : Graph κ} {here goal : String} {path : List String} {cost : κ}

theorem starts_here (walk : Walk g here goal path cost) : ∃ tail, path = here :: tail := by
  cases walk with
  | stay => exact ⟨[], rfl⟩
  | step _ _ _ rest => exact ⟨_, rfl⟩

theorem visits_start (walk : Walk g here goal path cost) : here ∈ path := by
  obtain ⟨tail, rfl⟩ := walk.starts_here
  exact List.mem_cons_self

theorem visits_goal (walk : Walk g here goal path cost) : goal ∈ path := by
  induction walk with
  | stay => exact List.mem_cons_self
  | step _ _ _ _ ih => exact List.mem_cons_of_mem _ ih

theorem prolonged (walk : Walk g here goal path cost) (arc : Arc κ) (member : arc ∈ g.arcs)
    (leaves : arc.source = goal) :
    Walk g here arc.target (path ++ [arc.target]) (cost + arc.cost) := by
  induction walk with
  | stay vertex =>
      rw [add_comm]
      exact .step arc member leaves (.stay arc.target)
  | step first member' leaves' _ ih =>
      rw [add_assoc]
      exact .step first member' leaves' (ih leaves)

theorem visits_targets (walk : Walk g here goal path cost) {vertex : String}
    (visited : vertex ∈ path) : vertex = here ∨ ∃ arc ∈ g.arcs, arc.target = vertex := by
  induction walk with
  | stay here => exact Or.inl (by simpa using visited)
  | step arc member _ _ ih =>
      rcases List.mem_cons.mp visited with first | later
      · exact Or.inl first
      · rcases ih later with next | further
        · exact Or.inr ⟨arc, member, next.symm⟩
        · exact Or.inr further

theorem of_more_arcs {g' : Graph κ} (walk : Walk g here goal path cost)
    (kept : ∀ arc ∈ g.arcs, arc ∈ g'.arcs) : Walk g' here goal path cost := by
  induction walk with
  | stay vertex => exact .stay vertex
  | step arc member leaves _ ih => exact .step arc (kept arc member) leaves ih

theorem in_graph_without (walk : Walk g here goal path cost) (vertex : String)
    (unvisited : vertex ∉ path) : Walk (g.without vertex) here goal path cost := by
  induction walk with
  | stay here => exact .stay here
  | step arc member leaves rest ih =>
      have other := List.ne_of_not_mem_cons unvisited
      have later := List.not_mem_of_not_mem_cons unvisited
      have source : arc.source ≠ vertex := fun same => other (same.symm.trans leaves)
      have target : arc.target ≠ vertex := fun same => later (same ▸ rest.visits_start)
      refine .step arc ?_ leaves (ih later)
      exact List.mem_filter.mpr ⟨member, by simp [source, target]⟩

theorem from_graph_without {vertex : String}
    (walk : Walk (g.without vertex) here goal path cost) : Walk g here goal path cost :=
  walk.of_more_arcs fun _ member => List.mem_of_mem_filter member

theorem avoids {vertex : String} (walk : Walk (g.without vertex) here goal path cost)
    (elsewhere : here ≠ vertex) : vertex ∉ path := by
  generalize smaller : g.without vertex = rest at walk
  induction walk with
  | stay here => simpa using Ne.symm elsewhere
  | step arc member _ _ ih =>
      subst smaller
      have kept := List.of_mem_filter member
      have target : arc.target ≠ vertex := by
        simp only [ne_eq, Bool.and_eq_true, decide_eq_true_eq] at kept
        exact kept.2
      exact List.not_mem_cons_of_ne_of_not_mem (Ne.symm elsewhere) (ih target)

variable [LinearOrder κ] [IsOrderedAddMonoid κ]

theorem cost_nonneg (walk : Walk g here goal path cost) (nonneg : ∀ arc ∈ g.arcs, 0 ≤ arc.cost) :
    0 ≤ cost := by
  induction walk with
  | stay => exact le_rfl
  | step arc member _ _ ih => exact add_nonneg (nonneg arc member) ih

/-- From any vertex that it visits a walk goes on to the goal, and that part costs no more. -/
theorem onward (walk : Walk g here goal path cost) (nonneg : ∀ arc ∈ g.arcs, 0 ≤ arc.cost)
    {vertex : String} (visited : vertex ∈ path) :
    ∃ onwardPath onwardCost, Walk g vertex goal onwardPath onwardCost ∧
      onwardPath <:+ path ∧ onwardCost ≤ cost := by
  induction walk with
  | stay here =>
      obtain rfl : vertex = here := by simpa using visited
      exact ⟨_, _, .stay vertex, List.suffix_refl _, le_rfl⟩
  | step arc member leaves rest ih =>
      rcases List.mem_cons.mp visited with rfl | later
      · exact ⟨_, _, .step arc member leaves rest, List.suffix_refl _, le_rfl⟩
      · obtain ⟨onwardPath, onwardCost, onwardWalk, suffix, less⟩ := ih later
        exact ⟨onwardPath, onwardCost, onwardWalk, suffix.trans (List.suffix_cons _ _),
          less.trans (le_add_of_nonneg_left (nonneg arc member))⟩

theorem simplified (walk : Walk g here goal path cost) (nonneg : ∀ arc ∈ g.arcs, 0 ≤ arc.cost) :
    ∃ simplePath simpleCost, Walk g here goal simplePath simpleCost ∧ simplePath.Nodup ∧
      simpleCost ≤ cost := by
  induction walk with
  | stay vertex => exact ⟨_, _, .stay vertex, List.nodup_singleton vertex, le_rfl⟩
  | @step here _ _ _ arc member leaves _ ih =>
      obtain ⟨simplePath, simpleCost, simple, nodup, less⟩ := ih
      by_cases visited : here ∈ simplePath
      · obtain ⟨onwardPath, onwardCost, onwardWalk, suffix, less'⟩ :=
          simple.onward nonneg visited
        exact ⟨onwardPath, onwardCost, onwardWalk, nodup.sublist suffix.sublist,
          less'.trans (less.trans (le_add_of_nonneg_left (nonneg arc member)))⟩
      · exact ⟨here :: simplePath, arc.cost + simpleCost, .step arc member leaves simple,
          List.nodup_cons.mpr ⟨visited, nodup⟩, add_le_add_right less _⟩

end Walk
end EdgePlacement.Graph
