import Mathlib.Data.List.Lex
import Mathlib.Data.String.Basic
import EdgePlacement.Proofs.Paths.LeastCosts

/-!
# The first of the tied paths

The search goes on from a vertex only along an arc that still leads to a tie, on vertices that it
has not used. What it returns is a simple path that ties with the least cost, and its sequence of
vertices comes first among all of these.
-/

namespace EdgePlacement

open EdgePlacement.Graph

set_option autoImplicit false

variable {κ : Type} [AddCommMonoid κ] [LinearOrder κ]

/-- What the search asks of a graph: the arcs out of a vertex have ascending, hence distinct,
targets. -/
structure Graph.Regular (g : Graph κ) : Prop where
  nonneg : ∀ arc ∈ g.arcs, 0 ≤ arc.cost
  closed : ∀ arc ∈ g.arcs, arc.source ∈ g.vertices ∧ arc.target ∈ g.vertices
  loopless : ∀ arc ∈ g.arcs, arc.source ≠ arc.target
  ascending : ∀ vertex, (g.arcsFrom vertex).Pairwise fun a b => a.target < b.target

theorem Graph.Regular.without {g : Graph κ} (regular : g.Regular) (vertex : String) :
    (g.without vertex).Regular := by
  have kept : ∀ arc ∈ (g.without vertex).arcs, arc ∈ g.arcs :=
    fun arc member => List.mem_of_mem_filter member
  refine ⟨fun arc member => regular.nonneg arc (kept arc member), fun arc member => ?_,
    fun arc member => regular.loopless arc (kept arc member), fun start => ?_⟩
  · obtain ⟨source, target⟩ := regular.closed arc (kept arc member)
    have apart : arc.source ≠ vertex ∧ arc.target ≠ vertex := by
      simpa using List.of_mem_filter member
    exact ⟨List.mem_filter.mpr ⟨source, by simpa using apart.1⟩,
      List.mem_filter.mpr ⟨target, by simpa using apart.2⟩⟩
  · exact (regular.ascending start).sublist (List.filter_sublist.filter _)

theorem Graph.Regular.target_remains {g : Graph κ} (regular : g.Regular) {here : String}
    {arc : Arc κ} (outgoing : arc ∈ g.arcsFrom here) :
    arc.target ≠ here ∧ arc.target ∈ (g.without here).vertices := by
  obtain ⟨member, leaves⟩ := List.mem_filter.mp outgoing
  have source : arc.source = here := by simpa using leaves
  have elsewhere : arc.target ≠ here :=
    fun same => regular.loopless arc member (source.trans same.symm)
  exact ⟨elsewhere, List.mem_filter.mpr ⟨(regular.closed arc member).2, by simpa using elsewhere⟩⟩

omit [AddCommMonoid κ] [LinearOrder κ] in
theorem Graph.fewer_vertices_without {g : Graph κ} {vertex : String}
    (member : vertex ∈ g.vertices) :
    (g.without vertex).vertices.length < g.vertices.length :=
  List.length_filter_lt_length_iff_exists.mpr ⟨vertex, member, by simp⟩

namespace CostRule

variable {rule : CostRule κ}

/-- A simple path onward from a vertex reached with a given cost, which ties in total. -/
def Ties (rule : CostRule κ) (g : Graph κ) (here goal : String) (best cost : κ)
    (path : List String) : Prop :=
  ∃ total, Walk g here goal path total ∧ path.Nodup ∧ rule.tied (cost + total) best = true

omit [LinearOrder κ] in
theorem ties_at_goal {g : Graph κ} {goal : String} {best cost : κ} {path : List String}
    (ties : rule.Ties g goal goal best cost path) :
    path = [goal] ∧ rule.tied cost best = true := by
  obtain ⟨total, walk, nodup, tied⟩ := ties
  cases walk with
  | stay => exact ⟨rfl, by rwa [add_zero] at tied⟩
  | step arc member leaves rest =>
      have returns : goal ∈ _ := rest.visits_goal
      exact absurd returns (List.nodup_cons.mp nodup).1

theorem ties_step_iff {g : Graph κ} (regular : g.Regular) {here goal : String}
    (away : here ≠ goal) (best cost : κ) (path : List String) :
    rule.Ties g here goal best cost path ↔
      ∃ arc ∈ g.arcsFrom here, ∃ tail, path = here :: tail ∧
        rule.Ties (g.without here) arc.target goal best (cost + arc.cost) tail := by
  constructor
  · rintro ⟨total, walk, nodup, tied⟩
    cases walk with
    | stay => exact absurd rfl away
    | @step _ _ tail rest arc member leaves onward =>
        obtain ⟨fresh, tailNodup⟩ := List.nodup_cons.mp nodup
        refine ⟨arc, List.mem_filter.mpr ⟨member, by simpa using leaves⟩, tail, rfl, rest,
          onward.in_graph_without here fresh, tailNodup, ?_⟩
        rwa [add_assoc]
  · rintro ⟨arc, outgoing, tail, rfl, rest, onward, tailNodup, tied⟩
    obtain ⟨member, leaves⟩ := List.mem_filter.mp outgoing
    obtain ⟨elsewhere, -⟩ := regular.target_remains outgoing
    refine ⟨arc.cost + rest, .step arc member (by simpa using leaves) onward.from_graph_without,
      List.nodup_cons.mpr ⟨onward.avoids elsewhere, tailNodup⟩, ?_⟩
    rwa [← add_assoc]

omit [LinearOrder κ] in
theorem ties_start_here {g : Graph κ} {here goal : String} {best cost : κ} {path : List String}
    (ties : rule.Ties g here goal best cost path) : ∃ tail, path = here :: tail := by
  obtain ⟨total, walk, -⟩ := ties
  exact walk.starts_here

/-- No walk onward from a vertex reached with a given cost is cheaper than the best one. -/
def Bounded (g : Graph κ) (here goal : String) (best cost : κ) : Prop :=
  ∀ path total, Walk g here goal path total → best ≤ cost + total

theorem Bounded.along {g : Graph κ} {here goal : String} {best cost : κ}
    (bounded : Bounded g here goal best cost) {arc : Arc κ} (outgoing : arc ∈ g.arcsFrom here) :
    Bounded (g.without here) arc.target goal best (cost + arc.cost) := by
  intro path total walk
  obtain ⟨member, leaves⟩ := List.mem_filter.mp outgoing
  rw [add_assoc]
  exact bounded _ _ (.step arc member (by simpa using leaves) walk.from_graph_without)

variable [IsOrderedAddMonoid κ]

/-- Where no walk costs less than the best one, the least cost onward decides whether there is a
tie: it lies between the best cost and that of any tied path. -/
theorem leads_to_tie_iff (exact : rule.Exact) {g : Graph κ} (regular : g.Regular)
    {here goal : String} {best cost : κ} (bestNonneg : 0 ≤ best)
    (bounded : Bounded g here goal best cost) :
    rule.leadsToTie g goal best here cost = true ↔
      ∃ path, rule.Ties g here goal best cost path := by
  have targets : ∀ arc ∈ g.arcs, arc.target ∈ g.vertices :=
    fun arc member => (regular.closed arc member).2
  unfold leadsToTie
  constructor
  · intro leads
    split at leads
    · rename_i least found
      obtain ⟨path, total, walk, rfl⟩ := least_cost_founded exact found
      obtain ⟨simplePath, simpleTotal, simple, nodup, less⟩ := walk.simplified regular.nonneg
      obtain ⟨least', found', below⟩ :=
        least_cost_reached exact regular.nonneg targets cost simple
      rw [found] at found'
      cases found'
      have same : cost + simpleTotal = cost + total :=
        le_antisymm (add_le_add_right less cost) below
      exact ⟨simplePath, simpleTotal, simple, nodup, same ▸ leads⟩
    · cases leads
  · rintro ⟨path, total, walk, -, tied⟩
    obtain ⟨least, found, below⟩ := least_cost_reached exact regular.nonneg targets cost walk
    obtain ⟨leastPath, leastTotal, leastWalk, rfl⟩ := least_cost_founded exact found
    rw [found]
    exact exact.tiedBetween best _ _ bestNonneg (bounded leastPath leastTotal leastWalk) below tied

omit [IsOrderedAddMonoid κ] in
theorem first_leading_arc {g : Graph κ} (regular : g.Regular) (here : String)
    (leads : Arc κ → Bool) {arc : Arc κ} (outgoing : arc ∈ g.arcsFrom here)
    (leading : leads arc = true) :
    ∃ first, (g.arcsFrom here).find? leads = some first ∧ first ∈ g.arcsFrom here ∧
      leads first = true ∧
      ∀ other ∈ g.arcsFrom here, leads other = true → other = first ∨
        first.target < other.target := by
  have present : ((g.arcsFrom here).find? leads).isSome :=
    List.find?_isSome.mpr ⟨arc, outgoing, leading⟩
  obtain ⟨first, found⟩ := Option.isSome_iff_exists.mp present
  obtain ⟨leadsFirst, before, after, split, passed⟩ := List.find?_eq_some_iff_append.mp found
  refine ⟨first, found, List.mem_of_find?_eq_some found, leadsFirst, ?_⟩
  intro other member leadsOther
  rw [split] at member
  rcases List.mem_append.mp member with earlier | later
  · have refused := passed other earlier
    rw [leadsOther] at refused
    cases refused
  · rcases List.mem_cons.mp later with same | later
    · exact Or.inl same
    · have ascending := regular.ascending here
      rw [split, List.pairwise_append] at ascending
      exact Or.inr (List.rel_of_pairwise_cons ascending.2.1 later)

omit [LinearOrder κ] [IsOrderedAddMonoid κ] in
theorem least_step_first {g : Graph κ} {here goal : String} {best cost : κ} {first arc : Arc κ}
    {onward tail : List String}
    (tiesOnward : rule.Ties g first.target goal best (cost + first.cost) onward)
    (leastOnward : ∀ other, rule.Ties g first.target goal best (cost + first.cost) other →
      onward ≤ other)
    (tiesTail : rule.Ties g arc.target goal best (cost + arc.cost) tail)
    (least : arc = first ∨ first.target < arc.target) : here :: onward ≤ here :: tail := by
  apply List.cons_le_cons
  rcases least with rfl | later
  · exact leastOnward tail tiesTail
  · obtain ⟨_, rfl⟩ := ties_start_here tiesOnward
    obtain ⟨_, rfl⟩ := ties_start_here tiesTail
    exact le_of_lt (List.cons_lt_cons_iff.mpr (Or.inl later))

/-- The path that the search finds comes first, because each arc passed over leads to no tie and
all later arcs lead to a later vertex. -/
theorem first_tied_is_first (exact : rule.Exact) {goal : String} {best : κ}
    (bestNonneg : 0 ≤ best) (fuel : Nat) (g : Graph κ) (here : String) (cost : κ)
    (regular : g.Regular) (inside : here ∈ g.vertices) (enough : g.vertices.length ≤ fuel)
    (bounded : Bounded g here goal best cost)
    (reachable : ∃ path, rule.Ties g here goal best cost path) :
    ∃ path, rule.firstTied? goal best fuel g here cost = some path ∧
      rule.Ties g here goal best cost path ∧
      ∀ other, rule.Ties g here goal best cost other → path ≤ other := by
  induction fuel generalizing g here cost with
  | zero =>
      have positive := List.length_pos_of_mem inside
      omega
  | succ fuel ih =>
      obtain ⟨path, ties⟩ := reachable
      by_cases arrived : here = goal
      · subst arrived
        obtain ⟨rfl, -⟩ := ties_at_goal ties
        refine ⟨[here], by rw [firstTied?, if_pos rfl], ties, fun other tiesOther => ?_⟩
        rw [(ties_at_goal tiesOther).1]
      · obtain ⟨arc, outgoing, tail, -, tiesTail⟩ :=
          (ties_step_iff regular arrived best cost path).mp ties
        let leads := fun arc : Arc κ =>
          rule.leadsToTie (g.without here) goal best arc.target (rule.add cost arc.cost)
        have leads_iff : ∀ arc ∈ g.arcsFrom here, leads arc = true ↔
            ∃ tail, rule.Ties (g.without here) arc.target goal best (cost + arc.cost) tail := by
          intro arc outgoing
          dsimp only [leads]
          rw [exact.add]
          exact leads_to_tie_iff exact (regular.without here) bestNonneg (bounded.along outgoing)
        obtain ⟨first, found, outgoingFirst, leadsFirst, least⟩ :=
          first_leading_arc regular here leads outgoing
            ((leads_iff arc outgoing).mpr ⟨tail, tiesTail⟩)
        obtain ⟨-, insideFirst⟩ := regular.target_remains outgoingFirst
        have fewer := Graph.fewer_vertices_without inside
        obtain ⟨onward, foundOnward, tiesOnward, leastOnward⟩ :=
          ih (g.without here) first.target (cost + first.cost) (regular.without here) insideFirst
            (by omega) (bounded.along outgoingFirst) ((leads_iff first outgoingFirst).mp leadsFirst)
        refine ⟨here :: onward, ?_, ?_, fun other tiesOther => ?_⟩
        · rw [firstTied?, if_neg arrived]
          dsimp only
          rw [found]
          dsimp only
          rw [exact.add, foundOnward]
          rfl
        · exact (ties_step_iff regular arrived best cost _).mpr
            ⟨first, outgoingFirst, onward, rfl, tiesOnward⟩
        · obtain ⟨arc', outgoing', tail', rfl, tiesTail'⟩ :=
            (ties_step_iff regular arrived best cost other).mp tiesOther
          exact least_step_first tiesOnward leastOnward tiesTail'
            (least arc' outgoing' ((leads_iff arc' outgoing').mpr ⟨tail', tiesTail'⟩))

/-! ## The whole search -/

theorem least_cost_is_least (exact : rule.Exact) {g : Graph κ} (regular : g.Regular)
    {source goal : String} {walked : List String} {walkCost : κ}
    (walk : Walk g source goal walked walkCost) :
    ∃ best path, rule.leastCost? g source 0 goal = some best ∧ Walk g source goal path best ∧
      path.Nodup ∧ ∀ other total, Walk g source goal other total → best ≤ total := by
  have targets : ∀ arc ∈ g.arcs, arc.target ∈ g.vertices :=
    fun arc member => (regular.closed arc member).2
  have reach := fun {path : List String} {total : κ} (walk : Walk g source goal path total) =>
    least_cost_reached exact regular.nonneg targets 0 walk
  obtain ⟨best, found, -⟩ := reach walk
  have bound : ∀ path total, Walk g source goal path total → best ≤ total := by
    intro path total other
    obtain ⟨best', found', below⟩ := reach other
    rw [found] at found'
    cases found'
    rwa [zero_add] at below
  obtain ⟨bestPath, bestTotal, bestWalk, same⟩ := least_cost_founded exact found
  rw [zero_add] at same
  subst same
  obtain ⟨simplePath, simpleTotal, simple, nodup, less⟩ := bestWalk.simplified regular.nonneg
  obtain rfl : simpleTotal = best := le_antisymm less (bound simplePath simpleTotal simple)
  exact ⟨simpleTotal, simplePath, found, simple, nodup, bound⟩

/-- What the search for a least path finds: with the least cost of all walks at hand, the first of
the simple paths that tie with it. -/
theorem least_path_is_first_tied (exact : rule.Exact) {g : Graph κ} (regular : g.Regular)
    {source goal : String} (inside : source ∈ g.vertices) {walked : List String} {walkCost : κ}
    (walk : Walk g source goal walked walkCost) :
    ∃ best path bestPath, rule.leastPath? g source goal = some path ∧
      Walk g source goal bestPath best ∧ bestPath.Nodup ∧
      (∀ other total, Walk g source goal other total → best ≤ total) ∧
      rule.Ties g source goal best 0 path ∧
      ∀ other, rule.Ties g source goal best 0 other → path ≤ other := by
  obtain ⟨best, bestPath, found, bestWalk, nodup, least⟩ := least_cost_is_least exact regular walk
  have bounded : Bounded g source goal best 0 := by
    intro path total other
    rw [zero_add]
    exact least path total other
  have tie : rule.Ties g source goal best 0 bestPath := by
    refine ⟨best, bestWalk, nodup, ?_⟩
    rw [zero_add]
    exact exact.tiedSelf best
  obtain ⟨path, searched, ties, first⟩ :=
    first_tied_is_first exact (bestWalk.cost_nonneg regular.nonneg) g.vertices.length g source 0
      regular inside le_rfl bounded ⟨bestPath, tie⟩
  refine ⟨best, path, bestPath, ?_, bestWalk, nodup, least, ties, first⟩
  rw [leastPath?, exact.start, found]
  exact searched

omit [IsOrderedAddMonoid κ] in
theorem least_path_none (exact : rule.Exact) {g : Graph κ} {source goal : String}
    (unreachable : ¬ ∃ path total, Walk g source goal path total) :
    rule.leastPath? g source goal = none := by
  unfold leastPath?
  split
  · rfl
  · rename_i best found
    obtain ⟨path, total, walk, -⟩ := least_cost_founded exact found
    exact absurd ⟨path, total, walk⟩ unreachable

end CostRule
end EdgePlacement
