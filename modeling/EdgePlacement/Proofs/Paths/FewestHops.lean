import EdgePlacement.Proofs.Binary64.Undefined
import EdgePlacement.Proofs.Paths.FoundPaths

/-!
# Paths of the fewest links

A walk may go along any stored links, parallel ones and loops included. A trail of preferred links
need not be longer than any of them, so that the path by count of links is the shortest of all
walks, and the first by names of those that are as short.
-/

namespace EdgePlacement.Topology

open EdgePlacement.Graph EdgePlacement.Binary64

set_option autoImplicit false

section Walks

variable {α : Type} {t : Topology α} {a b : String} {names : List String} {links : List (Link α)}

abbrev Walked (t : Topology α) : String → String → List String → List (Link α) → Prop :=
  Trail fun a b l => l ∈ t.links ∧ l.joins a b = true

theorem walked_back (walk : t.Walked a b names links) :
    t.Walked b a names.reverse links.reverse := by
  apply walk.reversed
  rintro a b l ⟨stored, joins⟩
  refine ⟨stored, ?_⟩
  rw [l.joins_iff] at joins ⊢
  exact joins.symm

variable [Quantity α]

theorem trail_walked (trail : Trail t.Carries a b names links) : t.Walked a b names links := by
  apply trail.imp
  intro a b l carried
  obtain ⟨stored, -, joins⟩ := preferred_link_between carried
  exact ⟨stored, joins⟩

/-- Loops are left out, and every other link gives way to the preferred one beside it: the nodes
stay the same unless the walk gets shorter. -/
theorem walked_has_trail (walk : t.Walked a b names links) :
    ∃ carriedNames carriedLinks, Trail t.Carries a b carriedNames carriedLinks ∧
      carriedLinks.length ≤ links.length ∧
      (carriedLinks.length = links.length → carriedNames = names) := by
  induction walk with
  | stay node => exact ⟨[node], [], .stay node, le_rfl, fun _ => rfl⟩
  | @step here next goal names links l carried _ ih =>
      obtain ⟨carriedNames, carriedLinks, trail, shorter, same⟩ := ih
      obtain ⟨stored, joins⟩ := carried
      rw [List.length_cons]
      by_cases proper : l.first = l.second
      · have stays : here = next := by
          rcases (l.joins_iff here next).mp joins with ⟨rfl, rfl⟩ | ⟨rfl, rfl⟩
          · exact proper
          · exact proper.symm
        subst stays
        -- The walk without the loop is shorter, which leaves nothing to show of its nodes.
        refine ⟨carriedNames, carriedLinks, trail, by omega, fun length => ?_⟩
        omega
      · obtain ⟨k, preferred⟩ := preferred_link_exists stored proper joins
        refine ⟨here :: carriedNames, k :: carriedLinks, .step k preferred trail, ?_, ?_⟩
        · rw [List.length_cons]
          exact Nat.succ_le_succ shorter
        · intro length
          rw [same (by simpa using length)]

theorem FirstOfFewest.among_walks (first : t.FirstOfFewest a b names links) :
    ∀ others otherLinks, t.Walked a b others otherLinks →
      links.length ≤ otherLinks.length ∧ (otherLinks.length = links.length → names ≤ others) := by
  intro others otherLinks walk
  obtain ⟨carriedNames, carriedLinks, trail, shorter, same⟩ := walked_has_trail walk
  have fewest := first.fewest carriedNames carriedLinks trail
  refine ⟨fewest.trans shorter, fun length => ?_⟩
  have kept : carriedLinks.length = otherLinks.length := by omega
  rw [← same kept]
  exact first.first carriedNames carriedLinks trail (kept.trans length)

theorem FirstOfFewest.least_as_short (first : t.FirstOfFewest a b names links)
    {shortest : List (List String)} (lists : ∀ others, others ∈ shortest ↔
      ∃ otherLinks, Trail t.Carries a b others otherLinks ∧ otherLinks.length = links.length) :
    shortest.min? = some names := by
  rw [List.min?_eq_some_iff]
  refine ⟨(lists names).mpr ⟨links, first.trail, rfl⟩, fun others listed => ?_⟩
  obtain ⟨otherLinks, trail, length⟩ := (lists others).mp listed
  exact first.first others otherLinks trail length

/-- The least of all walks through the routing graph that have the fewest arcs. -/
theorem FirstOfFewest.least_listed (first : t.FirstOfFewest a b names links)
    (wellFormed : t.WellFormed) {shortest : List (List String)}
    (lists : ∀ others, others ∈ shortest ↔ Walk t.hopGraph a b others links.length) :
    shortest.min? = some names := by
  have counted : ∀ links : List (Link α), (links.map fun _ => 1).sum = links.length := by simp
  apply first.least_as_short
  intro others
  unfold hopGraph at lists
  rw [lists, walk_iff_trail wellFormed]
  simp only [counted, eq_comm]

end Walks

/-! ## Binary64 latencies -/

variable {t : Topology Float} {a b : String} {names : List String} {links : List (Link Float)}

structure LeastBetween (t : Topology Float) (a b : String) (l : Link Float) : Prop where
  stored : l ∈ t.links
  proper : l.first ≠ l.second
  joins : l.joins a b = true
  least : ∀ k ∈ t.links, k.joins a b = true →
    l.latency < k.latency ∨ (l.latency == k.latency) = true ∧ l.id ≤ k.id

theorem numbers_ranked (numbers : ∀ l ∈ t.links, l.latency.isNaN = false) :
    Ranked t.links value where
  le l stored k stored' := by
    have number := (is_number_iff _).mpr (numbers l stored)
    have number' := (is_number_iff _).mpr (numbers k stored')
    rw [le_iff]
    exact ⟨fun both => both.2.2, fun below => ⟨number, number', below⟩⟩
  beq l stored k stored' :=
    beq_iff ((is_number_iff _).mpr (numbers l stored)) ((is_number_iff _).mpr (numbers k stored'))

theorem carried_by_least (numbers : ∀ l ∈ t.links, l.latency.isNaN = false) {l : Link Float}
    (carried : t.Carries a b l) : t.LeastBetween a b l := by
  obtain ⟨stored, proper, joins⟩ := preferred_link_between carried
  refine ⟨stored, proper, joins, fun k stored' joins' => ?_⟩
  have number := (is_number_iff _).mpr (numbers l stored)
  have number' := (is_number_iff _).mpr (numbers k stored')
  have differ := (preferred_link_ends carried).1
  have proper' : k.first ≠ k.second := by
    intro loop
    rcases (k.joins_iff a b).mp joins' with ⟨rfl, rfl⟩ | ⟨rfl, rfl⟩
    · exact differ loop
    · exact differ loop.symm
  have ranks := preferred_link_is_least (numbers_ranked numbers) carried k stored' proper' joins'
  unfold Link.rank at ranks
  rw [Prod.Lex.toLex_le_toLex] at ranks
  rw [lt_iff, beq_iff number number']
  exact ranks.imp_left fun less => ⟨number, number', less⟩

/-- A chain of preferred links that no walk at all undercuts, and the first by names of those that
are as short; every list of the shortest paths of the routing graph has it as its least one. -/
structure FewestHops (t : Topology Float) (a b : String) (names : List String)
    (links : List (Link Float)) : Prop where
  route : Trail t.LeastBetween a b names links
  fewest : ∀ others otherLinks, t.Walked a b others otherLinks → links.length ≤ otherLinks.length
  first : ∀ others otherLinks, t.Walked a b others otherLinks →
    otherLinks.length = links.length → names ≤ others
  listed : ∀ shortest : List (List String),
    (∀ others, others ∈ shortest ↔ Walk t.hopGraph a b others links.length) →
    shortest.min? = some names

theorem fewest_hops_path (wellFormed : t.WellFormed)
    (numbers : ∀ l ∈ t.links, l.latency.isNaN = false) (nodeA : a ∈ t.nodeNames)
    (nodeB : b ∈ t.nodeNames) (differ : a ≠ b) (walk : t.Walked a b names links) :
    ∃ foundNames found, t.findPath a b "hops" = .ok (some found) ∧
      t.FewestHops a b foundNames found := by
  obtain ⟨_, _, trail, -⟩ := walked_has_trail walk
  obtain ⟨foundNames, found, search, first⟩ := fewest_hops_found wellFormed nodeA trail
  refine ⟨foundNames, found, ?_, ?_⟩
  · rw [find_hop_path t nodeA nodeB differ, search, Option.map_some,
      links_along_trail first.trail]
  · constructor
    · exact first.trail.imp fun _ _ _ carried => carried_by_least numbers carried
    · exact fun others otherLinks other => (first.among_walks others otherLinks other).1
    · exact fun others otherLinks other => (first.among_walks others otherLinks other).2
    · exact fun shortest lists => first.least_listed wellFormed lists

theorem no_hop_path_iff (wellFormed : t.WellFormed)
    (numbers : ∀ l ∈ t.links, l.latency.isNaN = false) (nodeA : a ∈ t.nodeNames)
    (nodeB : b ∈ t.nodeNames) (differ : a ≠ b) :
    t.findPath a b "hops" = .ok none ↔ ¬ ∃ names links, t.Walked a b names links := by
  constructor
  · rintro none ⟨names, links, walk⟩
    obtain ⟨_, found, path, -⟩ := fewest_hops_path wellFormed numbers nodeA nodeB differ walk
    rw [none] at path
    cases path
  · intro unreachable
    rw [find_hop_path t nodeA nodeB differ, fewest_hops_none wellFormed]
    · rfl
    · rintro ⟨names, links, trail⟩
      exact unreachable ⟨names, links, trail_walked trail⟩

theorem found_hop_path (wellFormed : t.WellFormed)
    (numbers : ∀ l ∈ t.links, l.latency.isNaN = false) (nodeA : a ∈ t.nodeNames)
    (nodeB : b ∈ t.nodeNames) (differ : a ≠ b) (found : t.findPath a b "hops" = .ok (some links)) :
    ∃ names, t.FewestHops a b names links := by
  have reachable : ∃ names links, t.Walked a b names links := by
    by_contra unreachable
    rw [(no_hop_path_iff wellFormed numbers nodeA nodeB differ).mpr unreachable] at found
    cases found
  obtain ⟨_, _, walk⟩ := reachable
  obtain ⟨names, path, search, fewest⟩ :=
    fewest_hops_path wellFormed numbers nodeA nodeB differ walk
  obtain rfl : path = links := Option.some.inj (Except.ok.inj (search.symm.trans found))
  exact ⟨names, fewest⟩

/-- No path is longer than the way back along another one. -/
theorem FewestHops.le_way_back {namesBack : List String} {back : List (Link Float)}
    (fewest : t.FewestHops a b names links) (fewestBack : t.FewestHops b a namesBack back) :
    links.length ≤ back.length := by
  have walkBack : t.Walked b a namesBack back :=
    fewestBack.route.imp fun _ _ _ least => ⟨least.stored, least.joins⟩
  have bound := fewest.fewest _ _ (walked_back walkBack)
  rwa [List.length_reverse] at bound

/-- The path by count of links is complete, shortest among all walks, settled by names, and as long
from either end. -/
theorem hop_path_is_first_of_fewest (t : Topology Float) (wellFormed : t.WellFormed)
    (numbers : ∀ l ∈ t.links, l.latency.isNaN = false) (a b : String) (nodeA : a ∈ t.nodeNames)
    (nodeB : b ∈ t.nodeNames) (differ : a ≠ b) :
    (t.findPath a b "hops" = .ok none ↔ ¬ ∃ names links, t.Walked a b names links) ∧
    ((∃ names links, t.Walked a b names links) → ∃ names links,
      t.findPath a b "hops" = .ok (some links) ∧ t.FewestHops a b names links) ∧
    (t.findPath b a "hops" = .ok none ↔ t.findPath a b "hops" = .ok none) ∧
    ∀ links back, t.findPath a b "hops" = .ok (some links) →
      t.findPath b a "hops" = .ok (some back) → back.length = links.length := by
  have none := no_hop_path_iff wellFormed numbers nodeA nodeB differ
  have noneBack := no_hop_path_iff wellFormed numbers nodeB nodeA differ.symm
  have bothWays : (∃ names links, t.Walked b a names links) ↔
      ∃ names links, t.Walked a b names links := by
    constructor
    · rintro ⟨names, links, walk⟩
      exact ⟨_, _, walked_back walk⟩
    · rintro ⟨names, links, walk⟩
      exact ⟨_, _, walked_back walk⟩
  refine ⟨none, ?_, by rw [none, noneBack, bothWays], ?_⟩
  · rintro ⟨names, links, walk⟩
    exact fewest_hops_path wellFormed numbers nodeA nodeB differ walk
  · intro links back found foundBack
    obtain ⟨_, fewest⟩ := found_hop_path wellFormed numbers nodeA nodeB differ found
    obtain ⟨_, fewestBack⟩ := found_hop_path wellFormed numbers nodeB nodeA differ.symm foundBack
    exact le_antisymm (fewestBack.le_way_back fewest) (fewest.le_way_back fewestBack)

/-- Two ways of two links from one node to another, with a slower parallel link, one of equal
latency, a loop and a node out of reach beside them. -/
def diamond : Topology Float where
  nodes := [Node.fresh "a" ⟨1, 1, 1, 1⟩, Node.fresh "c" ⟨1, 1, 1, 1⟩, Node.fresh "b" ⟨1, 1, 1, 1⟩,
    Node.fresh "d" ⟨1, 1, 1, 1⟩, Node.fresh "e" ⟨1, 1, 1, 1⟩]
  links := [⟨"ac", "a", "c", 1, 1, 0⟩, ⟨"cd", "c", "d", 1, 1, 0⟩, ⟨"ab slow", "a", "b", 1, 7, 0⟩,
    ⟨"ab", "b", "a", 1, 5, 0⟩, ⟨"bd twin", "b", "d", 1, 5, 0⟩, ⟨"bd", "d", "b", 1, 5, 0⟩,
    ⟨"aa", "a", "a", 1, 0, 0⟩]
  canonical := [("a", "a"), ("c", "c"), ("b", "b"), ("d", "d"), ("e", "e")]
  tieTolerance := 0

theorem diamond_well_formed : diamond.WellFormed where
  names := by decide
  index := by decide
  ids := by decide
  ends := by decide

theorem diamond_path_is_first_of_fewest :
    (∃ names links, diamond.findPath "a" "d" "hops" = .ok (some links) ∧
      diamond.FewestHops "a" "d" names links) ∧
    diamond.findPath "d" "a" "hops" ≠ .ok none ∧
    diamond.findPath "e" "a" "hops" = .ok none ∧ diamond.findPath "a" "e" "hops" = .ok none := by
  have numbers : ∀ l ∈ diamond.links, l.latency.isNaN = false := by decide
  have walk : diamond.Walked "a" "d" ["a", "a", "b", "d"]
      [⟨"aa", "a", "a", 1, 0, 0⟩, ⟨"ab slow", "a", "b", 1, 7, 0⟩, ⟨"bd", "d", "b", 1, 5, 0⟩] :=
    .step _ (by decide) (.step _ (by decide) (.step _ (by decide) (.stay "d")))
  have unlinked : ∀ l ∈ diamond.links, l.first ≠ "e" ∧ l.second ≠ "e" := by decide
  have apart : ¬ ∃ names links, diamond.Walked "e" "a" names links := by
    rintro ⟨names, links, away⟩
    obtain ⟨next, l, stored, joins⟩ := away.leaves_start (by decide)
    obtain ⟨first, second⟩ := unlinked l stored
    rcases (l.joins_iff "e" next).mp joins with ends | ends
    · exact first ends.1
    · exact second ends.2
  obtain ⟨none, found, back, -⟩ := hop_path_is_first_of_fewest diamond diamond_well_formed numbers
    "a" "d" (by decide) (by decide) (by decide)
  obtain ⟨noneFromE, -, noneToE, -⟩ := hop_path_is_first_of_fewest diamond diamond_well_formed
    numbers "e" "a" (by decide) (by decide) (by decide)
  have noPath := noneFromE.mpr apart
  refine ⟨found ⟨_, _, walk⟩, fun missing => ?_, noPath, noneToE.mpr noPath⟩
  exact none.mp (back.mp missing) ⟨_, _, walk⟩

end EdgePlacement.Topology
