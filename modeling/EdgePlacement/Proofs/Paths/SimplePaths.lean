import EdgePlacement.Proofs.Paths.Routes

/-!
# Found paths are simple

Whatever the costs are and however they are compared, the search uses no vertex twice. The links of
a path that is found are therefore distinct, and each of them is the preferred one of its step.
-/

namespace EdgePlacement

open EdgePlacement.Graph

set_option autoImplicit false

variable {κ : Type}

theorem Graph.unweighted_without (g : Graph κ) (vertex : String) :
    (g.without vertex).unweighted = g.unweighted.without vertex := by
  unfold unweighted without
  rw [List.filter_map]
  rfl

theorem Graph.unweighted_twice (g : Graph κ) : g.unweighted.unweighted = g.unweighted := by
  unfold unweighted
  rw [List.map_map]
  rfl

theorem Graph.mem_unweighted {g : Graph κ} {arc : Arc κ} (member : arc ∈ g.arcs) :
    (⟨arc.source, arc.target, 1⟩ : Arc Nat) ∈ g.unweighted.arcs :=
  List.mem_map_of_mem member

theorem Graph.walk_of_joined {g : Graph κ} {source goal : String} {vertices : List String}
    (starts : vertices.head? = some source) (ends : vertices.getLast? = some goal)
    (joined : ∀ step ∈ vertices.zip vertices.tail, g.hasArc step.1 step.2 = true) :
    ∃ hops, Walk g.unweighted source goal vertices hops := by
  induction vertices generalizing source with
  | nil => cases starts
  | cons vertex rest ih =>
      cases starts
      cases rest with
      | nil =>
          cases ends
          exact ⟨0, .stay vertex⟩
      | cons next rest =>
          obtain ⟨first, later⟩ := List.forall_mem_cons.mp joined
          obtain ⟨hops, walk⟩ := ih rfl (by simpa using ends) later
          obtain ⟨arc, member, leaves⟩ := List.any_eq_true.mp first
          obtain ⟨source, target⟩ : arc.source = vertex ∧ arc.target = next := by
            simpa using leaves
          subst target
          exact ⟨1 + hops, .step _ (mem_unweighted member) source walk⟩

theorem Graph.Walk.joined {g : Graph κ} {source goal : String} {vertices : List String}
    {hops : Nat} (walk : Walk g.unweighted source goal vertices hops) :
    vertices.head? = some source ∧ vertices.getLast? = some goal ∧
      ∀ step ∈ vertices.zip vertices.tail, g.hasArc step.1 step.2 = true := by
  induction walk with
  | stay vertex => exact ⟨rfl, rfl, nofun⟩
  | @step here goal path _ arc member leaves rest ih =>
      obtain ⟨-, ends, joined⟩ := ih
      obtain ⟨tail, rfl⟩ := rest.starts_here
      refine ⟨rfl, by simpa using ends, List.forall_mem_cons.mpr ⟨?_, joined⟩⟩
      obtain ⟨source, stored, same⟩ := List.mem_map.mp member
      subst same
      exact List.any_eq_true.mpr ⟨source, stored, by simpa using leaves⟩

theorem CostRule.first_tied_simple (rule : CostRule κ) (goal : String) (best : κ) (fuel : Nat)
    (g : Graph κ) (loopless : ∀ arc ∈ g.arcs, arc.source ≠ arc.target) (here : String) (cost : κ)
    (path : List String) (found : rule.firstTied? goal best fuel g here cost = some path) :
    ∃ hops, Walk g.unweighted here goal path hops ∧ path.Nodup := by
  induction fuel generalizing g here cost path with
  | zero => cases found
  | succ fuel ih =>
      unfold firstTied? at found
      split_ifs at found with arrived
      · cases found
        subst arrived
        exact ⟨0, .stay here, List.nodup_singleton here⟩
      · dsimp only at found
        split at found
        · cases found
        · rename_i arc chosen
          obtain ⟨tail, onward, rfl⟩ := Option.map_eq_some_iff.mp found
          obtain ⟨member, leaves⟩ := List.mem_filter.mp (List.mem_of_find?_eq_some chosen)
          have source : arc.source = here := by simpa using leaves
          have loopless' : ∀ arc ∈ (g.without here).arcs, arc.source ≠ arc.target :=
            fun arc kept => loopless arc (List.mem_of_mem_filter kept)
          obtain ⟨hops, walk, nodup⟩ := ih (g.without here) loopless' _ _ tail onward
          rw [unweighted_without] at walk
          have elsewhere : arc.target ≠ here :=
            fun same => loopless arc member (source.trans same.symm)
          exact ⟨1 + hops, .step _ (mem_unweighted member) source walk.from_graph_without,
            List.nodup_cons.mpr ⟨walk.avoids elsewhere, nodup⟩⟩

theorem Graph.fewest_hops_chosen {g : Graph κ}
    (loopless : ∀ arc ∈ g.arcs, arc.source ≠ arc.target) {source goal : String}
    (joined : (hopRule.leastPath? g.unweighted source goal).isSome = true) :
    (g.fewestHops? source goal).isSome = true := by
  obtain ⟨names, found⟩ := Option.isSome_iff_exists.mp joined
  have searched := found
  unfold CostRule.leastPath? at found
  split at found
  · cases found
  · have unweightedLoopless : ∀ arc ∈ g.unweighted.arcs, arc.source ≠ arc.target := by
      intro arc member
      obtain ⟨origin, stored, rfl⟩ := List.mem_map.mp member
      exact loopless origin stored
    obtain ⟨hops, walk, simple⟩ :=
      hopRule.first_tied_simple _ _ _ _ unweightedLoopless _ _ names found
    rw [unweighted_twice] at walk
    obtain ⟨starts, ends, joined⟩ := walk.joined
    unfold fewestHops?
    rw [searched, Option.bind_some]
    unfold simplePath?
    rw [dif_pos starts, dif_pos ends, dif_pos joined, dif_pos simple]
    rfl

namespace Topology

variable {α : Type} [Quantity α] {t : Topology α}

theorem routing_graph_unweighted (t : Topology α) (weigh : Link α → κ) :
    (t.routingGraph weigh).unweighted = t.hopGraph := by
  unfold hopGraph routingGraph Graph.unweighted
  simp only [List.map_flatMap, List.map_filterMap, Option.map_map]
  rfl

theorem least_path_is_simple_trail (wellFormed : t.WellFormed) (rule : CostRule κ)
    (weigh : Link α → κ) {a b : String} {names : List String}
    (found : rule.leastPath? (t.routingGraph weigh) a b = some names) :
    Trail t.Carries a b names (t.linksAlong names) ∧ names.Nodup := by
  unfold CostRule.leastPath? at found
  split at found
  · cases found
  · obtain ⟨hops, walk, nodup⟩ := rule.first_tied_simple _ _ _ _
      (routing_graph_loopless weigh) _ _ names found
    rw [routing_graph_unweighted] at walk
    obtain ⟨links, trail, -⟩ := (walk_iff_trail wellFormed (fun _ => 1) a b names hops).mp walk
    rw [links_along_trail trail]
    exact ⟨trail, nodup⟩

variable [PathChoice α]

theorem chosen_path_is_simple_trail (wellFormed : t.WellFormed) {a b : String}
    {names : List String} (chosen : PathChoice.vertices? t.latencyGraph a b = some names) :
    Trail t.Carries a b names (t.linksAlong names) ∧ names.Nodup := by
  obtain ⟨path, -, rfl⟩ := Option.map_eq_some_iff.mp chosen
  obtain ⟨_, walk⟩ := Graph.walk_of_joined path.starts path.ends path.joined
  have hops : t.latencyGraph.unweighted = t.hopGraph := routing_graph_unweighted t (·.latency)
  rw [hops] at walk
  obtain ⟨links, trail, -⟩ := (walk_iff_trail wellFormed (fun _ => 1) a b _ _).mp walk
  rw [links_along_trail trail]
  exact ⟨trail, path.once⟩

theorem named_path_is_simple_trail (wellFormed : t.WellFormed) {a b : String}
    {weight : PathWeight} {names : List String}
    (found : t.namePath? a b weight = .ok (some names)) :
    Trail t.Carries a b names (t.linksAlong names) ∧ names.Nodup := by
  have byHops : ∀ names, t.fewestHops? a b = some names →
      Trail t.Carries a b names (t.linksAlong names) ∧ names.Nodup :=
    fun names least => least_path_is_simple_trail wellFormed hopRule _ least
  have byLatency : ∀ names, t.leastLatency? a b = some names →
      Trail t.Carries a b names (t.linksAlong names) ∧ names.Nodup := by
    intro names chosen
    unfold leastLatency? at chosen
    split_ifs at chosen
    exact least_path_is_simple_trail wellFormed t.latencyRule _ chosen
  unfold namePath? at found
  cases weight with
  | hops => exact byHops names (Except.ok.inj found)
  | latency =>
      dsimp only at found
      split at found
      · cases found
      · rename_i path _ least
        split_ifs at found
        cases found
        exact byLatency names least
      · split at found
        · rename_i path chosen
          cases found
          exact chosen_path_is_simple_trail wellFormed chosen
        · cases found

theorem found_path_is_simple_trail (wellFormed : t.WellFormed) {a b weight : String}
    {links : List (Link α)} (found : t.findPath a b weight = .ok (some links)) :
    ∃ names, Trail t.Carries a b names links ∧ names.Nodup := by
  unfold findPath at found
  split at found
  · cases found
  · rename_i weight _
    split_ifs at found with unknown same
    · cases found
      subst same
      exact ⟨[a], .stay a, List.nodup_singleton a⟩
    · generalize named : t.namePath? a b weight = result at found
      cases result with
      | error fault => cases found
      | ok path =>
          cases path with
          | none => cases found
          | some names =>
              cases found
              exact ⟨names, named_path_is_simple_trail wellFormed named⟩

/-- There are paths between the nodes, but none of them is the first of the least by latency, nor is
one of them chosen. -/
structure Undecided (t : Topology α) (a b : String) : Prop where
  joined : (t.fewestHops? a b).isSome = true
  unordered : t.leastLatency? a b = none
  unchosen : PathChoice.vertices? t.latencyGraph a b = none

/-- Why the paths between two nodes are not compared by latency: the tolerance is below zero, or a
latency compares with nothing. -/
inductive SearchRefused (t : Topology α) (a b : String) : PathWeight → Fault α → Prop where
  | intolerant (below : t.tieTolerance < 0) : SearchRefused t a b .latency .negativeTieTolerance
  | unordered (undecided : t.Undecided a b) : SearchRefused t a b .latency .unorderedPaths

/-- Between nodes, nothing else stands in the way of an answer. -/
theorem find_path_fault {t : Topology α} {a b : String} (nodeA : a ∈ t.nodeNames)
    (nodeB : b ∈ t.nodeNames) {weight : PathWeight} {fault : Fault α}
    (failed : t.findPath a b weight.name = .error fault) : t.SearchRefused a b weight fault := by
  have known : PathWeight.ofName? weight.name = some weight := by cases weight <;> rfl
  have present : (!(t.hasNode a && t.hasNode b)) = false := by
    rw [(has_node_iff t a).mpr nodeA, (has_node_iff t b).mpr nodeB]
    rfl
  unfold findPath at failed
  rw [known] at failed
  dsimp only at failed
  rw [present, if_neg Bool.false_ne_true] at failed
  split_ifs at failed
  generalize named : t.namePath? a b weight = result at failed
  cases result with
  | ok path => cases failed
  | error fault' =>
      cases failed
      unfold namePath? at named
      cases weight with
      | hops => cases named
      | latency =>
          dsimp only at named
          split at named
          · cases named
          · split_ifs at named with below
            cases named
            exact .intolerant (of_decide_eq_true (Bool.and_eq_true_iff.mp below).1)
          · rename_i fewest none
            split at named
            · cases named
            · rename_i unchosen
              cases named
              exact .unordered ⟨by rw [fewest, Option.isSome_some], none, unchosen⟩

omit [PathChoice α] in
theorem exact_search_answers {t : Topology Rat} {a b : String} (nodeA : a ∈ t.nodeNames)
    (nodeB : b ∈ t.nodeNames) {weight : PathWeight}
    (tolerable : weight = .hops ∨ 0 ≤ t.tieTolerance) :
    ∃ path, t.findPath a b weight.name = .ok path := by
  cases searched : t.findPath a b weight.name with
  | ok path => exact ⟨path, rfl⟩
  | error fault =>
      cases find_path_fault nodeA nodeB searched with
      | intolerant below => exact absurd below (not_lt.mpr (tolerable.resolve_left nofun))
      | unordered undecided =>
          have hops : t.latencyGraph.unweighted = t.hopGraph :=
            routing_graph_unweighted t (·.latency)
          have joined : (hopRule.leastPath? t.latencyGraph.unweighted a b).isSome = true :=
            hops ▸ undecided.joined
          have chosen : (t.latencyGraph.fewestHops? a b).isSome = true :=
            Graph.fewest_hops_chosen (routing_graph_loopless _) joined
          have unchosen : t.latencyGraph.fewestHops? a b = none :=
            Option.map_eq_none_iff.mp undecided.unchosen
          rw [unchosen] at chosen
          cases chosen

omit [PathChoice α] in
/-- The ids along a simple trail are distinct: a link that came again would lead back to a node
that has been left. -/
theorem simple_trail_ids_distinct (wellFormed : t.WellFormed) {a b : String}
    {names : List String} {links : List (Link α)} (trail : Trail t.Carries a b names links)
    (simple : names.Nodup) : (links.map (·.id)).Nodup := by
  induction trail with
  | stay => exact List.nodup_nil
  | @step here next goal names links l carried rest ih =>
      obtain ⟨left, simpleRest⟩ := List.nodup_cons.mp simple
      rw [List.map_cons, List.nodup_cons]
      refine ⟨fun again => ?_, ih simpleRest⟩
      obtain ⟨k, taken, same⟩ := List.mem_map.mp again
      obtain ⟨c, memberC, d, memberD, carried'⟩ := rest.carries_taken taken
      have stored := (preferred_link_between carried).1
      have stored' := (preferred_link_between carried').1
      obtain rfl : k = l := wellFormed.link_unique stored' stored same
      have ends := (preferred_link_ends carried).2
      have ends' := (preferred_link_ends carried').2
      have back : here = c ∨ here = d := by
        rcases ends with ⟨first, second⟩ | ⟨first, second⟩ <;>
          rcases ends' with ⟨first', second'⟩ | ⟨first', second'⟩
        · exact Or.inl (first.symm.trans first')
        · exact Or.inr (first.symm.trans first')
        · exact Or.inr (second.symm.trans second')
        · exact Or.inl (second.symm.trans second')
      rcases back with rfl | rfl
      · exact left memberC
      · exact left memberD

end Topology
end EdgePlacement
