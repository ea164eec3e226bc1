import Mathlib.Data.List.Perm.Subperm
import EdgePlacement.Proofs.Paths.Walks

/-!
# Least costs by rounds of relaxation

A label is always the cost of some walk. After as many rounds as a walk has arcs, the label of its
goal is at most its cost; simple walks have fewer arcs than there are vertices, so the rounds that
are made are enough for the least cost.
-/

namespace EdgePlacement

open EdgePlacement.Graph

set_option autoImplicit false

variable {κ : Type} [AddCommMonoid κ] [LinearOrder κ]

/-- Costs are counted exactly, and a cost that lies between the best one and a tied one is tied. -/
structure CostRule.Exact (rule : CostRule κ) : Prop where
  start : rule.start = 0
  add : ∀ a b, rule.add a b = a + b
  less : ∀ a b, rule.less a b = decide (a < b)
  tiedSelf : ∀ best, rule.tied best best = true
  tiedBetween : ∀ best a b, 0 ≤ best → best ≤ a → a ≤ b → rule.tied b best = true →
    rule.tied a best = true

namespace CostRule

variable {rule : CostRule κ}

/-- The vertex is labelled with the given cost or a lower one. -/
def Reached (labels : Labels κ) (vertex : String) (cost : κ) : Prop :=
  ∃ label, labels.lookup vertex = some label ∧ label ≤ cost

/-- Each label is the start cost and the cost of a walk. -/
def Founded (g : Graph κ) (source : String) (start : κ) (labels : Labels κ) : Prop :=
  ∀ vertex label, labels.lookup vertex = some label →
    ∃ path cost, Walk g source vertex path cost ∧ label = start + cost

/-! ## Improving one label -/

omit [AddCommMonoid κ] [LinearOrder κ] in
theorem lookup_improve_other (vertex other : String) (cost : κ) (labels : Labels κ)
    (differs : other ≠ vertex) :
    (rule.improve vertex cost labels).lookup other = labels.lookup other := by
  induction labels with
  | nil => simp [improve, List.lookup_cons, beq_false_of_ne differs]
  | cons label rest ih =>
      obtain ⟨reached, known⟩ := label
      unfold improve
      by_cases same : reached = vertex
      · have passed : (other == reached) = false := beq_false_of_ne (same ▸ differs)
        rw [if_pos same, List.lookup_cons, List.lookup_cons, passed]
      · rw [if_neg same, List.lookup_cons, List.lookup_cons, ih]

theorem lookup_improve_same (exact : rule.Exact) (vertex : String) (cost : κ)
    (labels : Labels κ) :
    (rule.improve vertex cost labels).lookup vertex =
      some (((labels.lookup vertex).map (min cost)).getD cost) := by
  induction labels with
  | nil => simp [improve]
  | cons label rest ih =>
      obtain ⟨reached, known⟩ := label
      unfold improve
      by_cases same : reached = vertex
      · subst same
        rw [if_pos rfl, List.lookup_cons_self, List.lookup_cons_self, exact.less]
        simp [min_def_lt]
      · have passed : (vertex == reached) = false := beq_false_of_ne (Ne.symm same)
        rw [if_neg same, List.lookup_cons, List.lookup_cons, passed]
        exact ih

theorem improve_reaches (exact : rule.Exact) (vertex : String) (cost : κ) (labels : Labels κ) :
    Reached (rule.improve vertex cost labels) vertex cost := by
  refine ⟨_, lookup_improve_same exact vertex cost labels, ?_⟩
  cases labels.lookup vertex with
  | none => exact le_rfl
  | some known => exact min_le_left cost known

theorem improve_keeps (exact : rule.Exact) (vertex other : String) (cost bound : κ)
    (labels : Labels κ) (reached : Reached labels other bound) :
    Reached (rule.improve vertex cost labels) other bound := by
  obtain ⟨label, found, less⟩ := reached
  by_cases same : other = vertex
  · subst same
    refine ⟨_, lookup_improve_same exact other cost labels, ?_⟩
    rw [found]
    exact (min_le_right cost label).trans less
  · exact ⟨label, by rw [lookup_improve_other vertex other cost labels same, found], less⟩

/-! ## Relaxing arcs -/

theorem relax_arc_keeps (exact : rule.Exact) (labels : Labels κ) (arc : Arc κ) (vertex : String)
    (bound : κ) (reached : Reached labels vertex bound) :
    Reached (rule.relaxArc labels arc) vertex bound := by
  unfold relaxArc
  split
  · exact reached
  · exact improve_keeps exact _ _ _ _ _ reached

theorem relax_arcs_keep (exact : rule.Exact) (arcs : List (Arc κ)) (labels : Labels κ)
    (vertex : String) (bound : κ) (reached : Reached labels vertex bound) :
    Reached (arcs.foldl rule.relaxArc labels) vertex bound := by
  induction arcs generalizing labels with
  | nil => exact reached
  | cons arc rest ih => exact ih _ (relax_arc_keeps exact labels arc vertex bound reached)

theorem relax_rounds_keep (exact : rule.Exact) (g : Graph κ) (rounds : Nat) (labels : Labels κ)
    (vertex : String) (bound : κ) (reached : Reached labels vertex bound) :
    Reached (rule.relaxRounds g rounds labels) vertex bound := by
  induction rounds generalizing labels with
  | zero => exact reached
  | succ rounds ih => exact ih _ (relax_arcs_keep exact g.arcs labels vertex bound reached)

variable [IsOrderedAddMonoid κ]

theorem relax_arc_reaches (exact : rule.Exact) (labels : Labels κ) (arc : Arc κ) (bound : κ)
    (reached : Reached labels arc.source bound) :
    Reached (rule.relaxArc labels arc) arc.target (bound + arc.cost) := by
  obtain ⟨label, found, less⟩ := reached
  unfold relaxArc
  rw [found]
  obtain ⟨improved, found', less'⟩ :=
    improve_reaches exact arc.target (rule.add label arc.cost) labels
  refine ⟨improved, found', less'.trans ?_⟩
  rw [exact.add]
  exact add_le_add_left less arc.cost

theorem relax_arcs_reach (exact : rule.Exact) (arcs : List (Arc κ)) (labels : Labels κ)
    (arc : Arc κ) (member : arc ∈ arcs) (bound : κ) (reached : Reached labels arc.source bound) :
    Reached (arcs.foldl rule.relaxArc labels) arc.target (bound + arc.cost) := by
  induction arcs generalizing labels with
  | nil => cases member
  | cons first rest ih =>
      rcases List.mem_cons.mp member with rfl | later
      · exact relax_arcs_keep exact rest _ _ _ (relax_arc_reaches exact labels arc bound reached)
      · exact ih _ later (relax_arc_keeps exact labels first arc.source bound reached)

/-- Each round follows a walk along one more of its arcs. -/
theorem relax_rounds_reach (exact : rule.Exact) {g : Graph κ} {here goal : String}
    {path : List String} {cost : κ} (walk : Walk g here goal path cost) (rounds : Nat)
    (labels : Labels κ) (bound : κ) (reached : Reached labels here bound)
    (enough : path.length ≤ rounds + 1) :
    Reached (rule.relaxRounds g rounds labels) goal (bound + cost) := by
  induction walk generalizing rounds labels bound with
  | stay vertex =>
      rw [add_zero]
      exact relax_rounds_keep exact g rounds labels vertex bound reached
  | @step _ _ path _ arc member leaves rest ih =>
      cases rounds with
      | zero =>
          have visits := List.length_pos_of_mem rest.visits_start
          rw [List.length_cons] at enough
          omega
      | succ rounds =>
          rw [← add_assoc]
          refine ih rounds _ _ (relax_arcs_reach exact g.arcs labels arc member bound ?_) ?_
          · rw [leaves]
            exact reached
          · rw [List.length_cons] at enough
            omega

/-! ## Labels are costs of walks -/

omit [IsOrderedAddMonoid κ] in
theorem relax_arc_founded (exact : rule.Exact) {g : Graph κ} {source : String} {start : κ}
    {labels : Labels κ} (founded : Founded g source start labels) {arc : Arc κ}
    (member : arc ∈ g.arcs) : Founded g source start (rule.relaxArc labels arc) := by
  intro vertex label found
  unfold relaxArc at found
  split at found
  · exact founded vertex label found
  · rename_i known knownFound
    obtain ⟨path, cost, walk, rfl⟩ := founded arc.source known knownFound
    by_cases same : vertex = arc.target
    · subst same
      rw [lookup_improve_same exact, exact.add, add_assoc] at found
      have prolonged := walk.prolonged arc member rfl
      cases before : labels.lookup arc.target with
      | none =>
          rw [before] at found
          cases found
          exact ⟨_, _, prolonged, rfl⟩
      | some old =>
          rw [before] at found
          cases found
          rcases min_choice (start + (cost + arc.cost)) old with new | kept
          · exact ⟨_, _, prolonged, new⟩
          · obtain ⟨oldPath, oldCost, oldWalk, rfl⟩ := founded arc.target old before
            exact ⟨oldPath, oldCost, oldWalk, kept⟩
    · rw [lookup_improve_other _ _ _ _ same] at found
      exact founded vertex label found

omit [IsOrderedAddMonoid κ] in
theorem relax_arcs_founded (exact : rule.Exact) {g : Graph κ} {source : String} {start : κ}
    (arcs : List (Arc κ)) (members : ∀ arc ∈ arcs, arc ∈ g.arcs) (labels : Labels κ)
    (founded : Founded g source start labels) :
    Founded g source start (arcs.foldl rule.relaxArc labels) := by
  induction arcs generalizing labels with
  | nil => exact founded
  | cons arc rest ih =>
      exact ih (fun later member => members later (List.mem_cons_of_mem _ member)) _
        (relax_arc_founded exact founded (members arc List.mem_cons_self))

omit [IsOrderedAddMonoid κ] in
theorem relax_rounds_founded (exact : rule.Exact) {g : Graph κ} {source : String} {start : κ}
    (rounds : Nat) (labels : Labels κ) (founded : Founded g source start labels) :
    Founded g source start (rule.relaxRounds g rounds labels) := by
  induction rounds generalizing labels with
  | zero => exact founded
  | succ rounds ih => exact ih _ (relax_arcs_founded exact g.arcs (fun _ => id) labels founded)

/-! ## The least cost -/

omit [IsOrderedAddMonoid κ] in
theorem least_cost_founded (exact : rule.Exact) {g : Graph κ} {source goal : String}
    {start least : κ} (found : rule.leastCost? g source start goal = some least) :
    ∃ path cost, Walk g source goal path cost ∧ least = start + cost := by
  refine relax_rounds_founded exact _ _ ?_ goal least found
  intro vertex label first
  rw [List.lookup_cons] at first
  split at first
  · rename_i same
    cases first
    obtain rfl : vertex = source := by simpa using same
    exact ⟨_, _, .stay vertex, (add_zero _).symm⟩
  · cases first

/-- No walk costs less. The walk is first made simple, so that the rounds suffice for it. -/
theorem least_cost_reached (exact : rule.Exact) {g : Graph κ}
    (nonneg : ∀ arc ∈ g.arcs, 0 ≤ arc.cost) (closed : ∀ arc ∈ g.arcs, arc.target ∈ g.vertices)
    {source goal : String} {path : List String} {cost : κ} (start : κ)
    (walk : Walk g source goal path cost) :
    ∃ least, rule.leastCost? g source start goal = some least ∧ least ≤ start + cost := by
  obtain ⟨simplePath, simpleCost, simple, nodup, less⟩ := walk.simplified nonneg
  obtain ⟨tail, rfl⟩ := simple.starts_here
  have inside : ∀ vertex ∈ tail, vertex ∈ g.vertices := by
    intro vertex visited
    rcases simple.visits_targets (List.mem_cons_of_mem source visited) with first | further
    · exact absurd (first ▸ visited) (List.nodup_cons.mp nodup).1
    · obtain ⟨arc, member, rfl⟩ := further
      exact closed arc member
  have enough : (source :: tail).length ≤ g.vertices.length + 1 := by
    have tailNodup := (List.nodup_cons.mp nodup).2
    rw [List.length_cons]
    exact Nat.succ_le_succ (tailNodup.subperm inside).length_le
  have reached : Reached [(source, start)] source start := ⟨start, by simp, le_rfl⟩
  obtain ⟨least, found, bound⟩ :=
    relax_rounds_reach exact simple g.vertices.length _ start reached enough
  exact ⟨least, found, bound.trans (add_le_add_right less start)⟩

end CostRule
end EdgePlacement
