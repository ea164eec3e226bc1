import EdgePlacement.Proofs.Paths.Routes
import EdgePlacement.Proofs.Paths.Rules

/-!
# The paths that are found

Over exact latencies a path is found wherever a chain of links leads; it is a simple route, and the
first of those that tie with the least latency of all chains. A search that lists all simple routes
by their latency may stop at the first one that does not tie: those after it do not tie either.
-/

namespace EdgePlacement.Topology

open EdgePlacement.Graph

set_option autoImplicit false

/-! ## Both weights -/

section LeastTrails

variable {α : Type} [Quantity α] {t : Topology α}
  {κ : Type} [AddCommMonoid κ] [LinearOrder κ] [IsOrderedAddMonoid κ] {rule : CostRule κ}

def TiesWith (t : Topology α) (rule : CostRule κ) (weigh : Link α → κ) (a b : String)
    (best : κ) (names : List String) : Prop :=
  ∃ links, Trail t.Carries a b names links ∧ names.Nodup ∧
    rule.tied (links.map weigh).sum best = true

omit [LinearOrder κ] [IsOrderedAddMonoid κ] in
theorem ties_iff_ties_with (wellFormed : t.WellFormed) (weigh : Link α → κ) (a b : String)
    (best : κ) (names : List String) :
    rule.Ties (t.routingGraph weigh) a b best 0 names ↔ t.TiesWith rule weigh a b best names := by
  constructor
  · rintro ⟨total, walk, nodup, tied⟩
    obtain ⟨links, trail, rfl⟩ := (walk_iff_trail wellFormed weigh a b names total).mp walk
    exact ⟨links, trail, nodup, by rwa [zero_add] at tied⟩
  · rintro ⟨links, trail, nodup, tied⟩
    refine ⟨_, (walk_iff_trail wellFormed weigh a b names _).mpr ⟨links, trail, rfl⟩, nodup, ?_⟩
    rwa [zero_add]

theorem least_trail_is_first (wellFormed : t.WellFormed) (exact : rule.Exact)
    (weigh : Link α → κ) (nonneg : ∀ l ∈ t.links, 0 ≤ weigh l) {a b : String}
    (node : a ∈ t.nodeNames) {walked : List String} {taken : List (Link α)}
    (trail : Trail t.Carries a b walked taken) :
    ∃ names bestNames bestLinks, rule.leastPath? (t.routingGraph weigh) a b = some names ∧
      Trail t.Carries a b bestNames bestLinks ∧ bestNames.Nodup ∧
      (∀ others links, Trail t.Carries a b others links →
        (bestLinks.map weigh).sum ≤ (links.map weigh).sum) ∧
      t.TiesWith rule weigh a b (bestLinks.map weigh).sum names ∧
      ∀ others, t.TiesWith rule weigh a b (bestLinks.map weigh).sum others → names ≤ others := by
  have regular := routing_graph_regular wellFormed weigh nonneg
  have inside : a ∈ (t.routingGraph weigh).vertices := (Text.mem_sort_names_iff _ _).mpr node
  have walk := (walk_iff_trail wellFormed weigh a b walked _).mpr ⟨taken, trail, rfl⟩
  obtain ⟨best, names, bestNames, found, bestWalk, bestNodup, least, ties, first⟩ :=
    CostRule.least_path_is_first_tied exact regular inside walk
  obtain ⟨bestLinks, bestTrail, rfl⟩ :=
    (walk_iff_trail wellFormed weigh a b bestNames best).mp bestWalk
  refine ⟨names, bestNames, bestLinks, found, bestTrail, bestNodup,
    fun others links otherTrail => ?_,
    (ties_iff_ties_with wellFormed weigh a b _ names).mp ties, fun others tiesOthers => ?_⟩
  · exact least others _ ((walk_iff_trail wellFormed weigh a b others _).mpr
      ⟨links, otherTrail, rfl⟩)
  · exact first others ((ties_iff_ties_with wellFormed weigh a b _ others).mpr tiesOthers)

omit [IsOrderedAddMonoid κ] in
theorem least_path_none_of_no_trail (wellFormed : t.WellFormed) (exact : rule.Exact)
    (weigh : Link α → κ) {a b : String}
    (unreachable : ¬ ∃ names links, Trail t.Carries a b names links) :
    rule.leastPath? (t.routingGraph weigh) a b = none := by
  apply CostRule.least_path_none exact
  rintro ⟨names, cost, walk⟩
  obtain ⟨links, trail, -⟩ := (walk_iff_trail wellFormed weigh a b names cost).mp walk
  exact unreachable ⟨names, links, trail⟩

end LeastTrails

/-! ## Counts of links -/

section Hops

variable {α : Type} [Quantity α] {t : Topology α} {a b : String}

/-- The first of the trails that have the fewest links. -/
structure FirstOfFewest (t : Topology α) (a b : String) (names : List String)
    (links : List (Link α)) : Prop where
  trail : Trail t.Carries a b names links
  fewest : ∀ others otherLinks, Trail t.Carries a b others otherLinks →
    links.length ≤ otherLinks.length
  first : ∀ others otherLinks, Trail t.Carries a b others otherLinks →
    otherLinks.length = links.length → names ≤ others

theorem fewest_hops_found (wellFormed : t.WellFormed) (node : a ∈ t.nodeNames)
    {walked : List String} {taken : List (Link α)} (trail : Trail t.Carries a b walked taken) :
    ∃ names links, t.fewestHops? a b = some names ∧ t.FirstOfFewest a b names links := by
  have counted : ∀ links : List (Link α), (links.map fun _ => 1).sum = links.length := by simp
  have tied : ∀ hops hops' : Nat, hopRule.tied hops hops' = true ↔ hops = hops' := by
    simp [hopRule]
  obtain ⟨names, bestNames, bestLinks, found, -, -, fewest, ties, first⟩ :=
    least_trail_is_first wellFormed hop_rule_exact (fun _ => 1) (fun _ _ => Nat.zero_le 1) node
      trail
  simp only [TiesWith, counted, tied] at fewest ties first
  obtain ⟨links, foundTrail, -, same⟩ := ties
  refine ⟨names, links, found, foundTrail, same ▸ fewest, fun others otherLinks other length => ?_⟩
  have simple : others.Nodup := by
    apply other.nodup_of_fewest
    rw [length, same]
    exact fewest
  exact first others ⟨otherLinks, other, simple, length.trans same⟩

theorem fewest_hops_none (wellFormed : t.WellFormed)
    (unreachable : ¬ ∃ names links, Trail t.Carries a b names links) : t.fewestHops? a b = none :=
  least_path_none_of_no_trail wellFormed hop_rule_exact _ unreachable

theorem find_hop_path [PathChoice α] (t : Topology α) (nodeA : a ∈ t.nodeNames)
    (nodeB : b ∈ t.nodeNames) (differ : a ≠ b) :
    t.findPath a b "hops" = .ok ((t.fewestHops? a b).map t.linksAlong) := by
  have known : PathWeight.ofName? "hops" = some .hops := rfl
  have presentA := (has_node_iff t a).mpr nodeA
  have presentB := (has_node_iff t b).mpr nodeB
  simp only [findPath, known, presentA, presentB, differ, Bool.and_self, Bool.not_true, if_false,
    namePath?]
  rfl

end Hops

variable {t : Topology Rat}

/-! ## Latency -/

theorem least_latency_eq (t : Topology Rat) (a b : String) :
    t.leastLatency? a b = t.latencyRule.leastPath? t.latencyGraph a b := by
  have compare : (t.latencyGraph.arcs.all fun arc => arc.cost == arc.cost) = true :=
    List.all_eq_true.mpr fun arc _ => beq_self_eq_true arc.cost
  unfold leastLatency?
  rw [if_pos compare]

theorem least_latency_none (wellFormed : t.WellFormed) {a b : String}
    (unreachable : ¬ ∃ names links, Trail t.Carries a b names links) :
    t.leastLatency? a b = none := by
  rw [least_latency_eq]
  exact least_path_none_of_no_trail wellFormed (latency_rule_exact t) _ unreachable

/-- Where a chain of links leads, the least of all latencies is found, and nothing is left open. -/
theorem least_latency_found (wellFormed : t.WellFormed) (accepted : ∀ l ∈ t.links, 0 ≤ l.latency)
    {a b : String} (nodeA : a ∈ t.nodeNames) {walked : List String} {taken : List (Link Rat)}
    (trail : Trail t.Carries a b walked taken) : ∃ names, t.leastLatency? a b = some names := by
  obtain ⟨names, -, -, found, -⟩ :=
    least_trail_is_first wellFormed (latency_rule_exact t) (·.latency) accepted nodeA trail
  exact ⟨names, (least_latency_eq t a b).trans found⟩

theorem find_latency_path (wellFormed : t.WellFormed) (accepted : ∀ l ∈ t.links, 0 ≤ l.latency)
    {a b : String} (nodeA : a ∈ t.nodeNames) (nodeB : b ∈ t.nodeNames) (differ : a ≠ b)
    (tolerance : 0 ≤ t.tieTolerance) :
    t.findPath a b "latency" = .ok ((t.leastLatency? a b).map t.linksAlong) := by
  have known : PathWeight.ofName? "latency" = some .latency := rfl
  have present : (!(t.hasNode a && t.hasNode b)) = false := by
    rw [(has_node_iff t a).mpr nodeA, (has_node_iff t b).mpr nodeB]
    rfl
  unfold findPath
  rw [known]
  dsimp only
  rw [present, if_neg Bool.false_ne_true, if_neg differ]
  unfold namePath?
  by_cases reachable : ∃ names links, Trail t.Carries a b names links
  · obtain ⟨walked, taken, trail⟩ := reachable
    obtain ⟨fewest, -, fewestFound, -⟩ := fewest_hops_found wellFormed nodeA trail
    obtain ⟨names, least⟩ := least_latency_found wellFormed accepted nodeA trail
    have notBelow : ¬ t.tieTolerance < 0 := not_lt.mpr tolerance
    rw [fewestFound, least]
    dsimp only
    rw [if_neg (by simp [notBelow])]
    rfl
  · rw [fewest_hops_none wellFormed reachable, least_latency_none wellFormed reachable]
    rfl

/-! ## A search that stops early -/

/-- What is left of the path so far and the candidates after it, up to the first that does not tie
with the best cost. -/
def keepTied (t : Topology Rat) (best : Rat) (path : List String) :
    List (List String) → List String
  | [] => path
  | candidate :: rest =>
    if Quantity.tied t.tieTolerance (totalLatency (t.linksAlong candidate)) best then
      keepTied t best (min path candidate) rest
    else path

/-- The first candidate sets the best cost. -/
def scanCandidates (t : Topology Rat) : List (List String) → Option (List String)
  | [] => none
  | first :: rest => some (t.keepTied (totalLatency (t.linksAlong first)) first rest)

/-- The candidates after the first that does not tie cost at least as much, so none of them ties. -/
theorem keep_tied_is_least {best : Rat} (bestNonneg : 0 ≤ best) (path : List String)
    (candidates : List (List String))
    (ordered : candidates.Pairwise fun x y =>
      totalLatency (t.linksAlong x) ≤ totalLatency (t.linksAlong y))
    (least : ∀ names ∈ candidates, best ≤ totalLatency (t.linksAlong names)) :
    (t.keepTied best path candidates = path ∨ t.keepTied best path candidates ∈ candidates ∧
      Quantity.tied t.tieTolerance
        (totalLatency (t.linksAlong (t.keepTied best path candidates))) best = true) ∧
    t.keepTied best path candidates ≤ path ∧
    ∀ names ∈ candidates,
      Quantity.tied t.tieTolerance (totalLatency (t.linksAlong names)) best = true →
        t.keepTied best path candidates ≤ names := by
  induction candidates generalizing path with
  | nil => exact ⟨Or.inl rfl, le_rfl, nofun⟩
  | cons candidate rest ih =>
      obtain ⟨costlier, orderedRest⟩ := List.pairwise_cons.mp ordered
      have leastRest := fun names member => least names (List.mem_cons_of_mem candidate member)
      unfold keepTied
      split_ifs with tied
      · obtain ⟨origin, below, first⟩ := ih (min path candidate) orderedRest leastRest
        refine ⟨?_, below.trans (min_le_left path candidate), fun names member tiedNames => ?_⟩
        · rcases origin with kept | ⟨member, tiedKept⟩
          · rw [kept]
            rcases min_choice path candidate with chosen | chosen
            · exact Or.inl chosen
            · rw [chosen]
              exact Or.inr ⟨List.mem_cons_self, tied⟩
          · exact Or.inr ⟨List.mem_cons_of_mem _ member, tiedKept⟩
        · rcases List.mem_cons.mp member with rfl | later
          · exact below.trans (min_le_right path names)
          · exact first names later tiedNames
      · refine ⟨Or.inl rfl, le_rfl, fun names member tiedNames => ?_⟩
        have tiedCandidate : Quantity.tied t.tieTolerance
            (totalLatency (t.linksAlong candidate)) best = true := by
          rcases List.mem_cons.mp member with rfl | later
          · exact tiedNames
          · exact Quantity.tied_between t.tieTolerance best _ _ bestNonneg
              (least candidate List.mem_cons_self) (costlier names later) tiedNames
        exact absurd tiedCandidate tied

structure Enumerates (t : Topology Rat) (a b : String) (candidates : List (List String)) :
    Prop where
  complete : ∀ names, names ∈ candidates ↔ names.Nodup ∧ ∃ links, Trail t.Carries a b names links
  ordered : candidates.Pairwise fun x y =>
    totalLatency (t.linksAlong x) ≤ totalLatency (t.linksAlong y)

theorem Enumerates.ties_iff {a b : String} {candidates : List (List String)}
    (enumerates : t.Enumerates a b candidates) (best : Rat) (names : List String) :
    t.TiesWith t.latencyRule (·.latency) a b best names ↔ names ∈ candidates ∧
      Quantity.tied t.tieTolerance (totalLatency (t.linksAlong names)) best = true := by
  constructor
  · rintro ⟨links, trail, nodup, tied⟩
    refine ⟨(enumerates.complete names).mpr ⟨nodup, links, trail⟩, ?_⟩
    rw [links_along_trail trail]
    exact tied
  · rintro ⟨member, tied⟩
    obtain ⟨nodup, links, trail⟩ := (enumerates.complete names).mp member
    rw [links_along_trail trail] at tied
    exact ⟨links, trail, nodup, tied⟩

theorem Enumerates.head_is_least {a b : String} {head : List String} {rest : List (List String)}
    (enumerates : t.Enumerates a b (head :: rest)) {bestNames : List String}
    {bestLinks : List (Link Rat)} (bestTrail : Trail t.Carries a b bestNames bestLinks)
    (bestNodup : bestNames.Nodup)
    (least : ∀ others links, Trail t.Carries a b others links →
      totalLatency bestLinks ≤ totalLatency links) :
    totalLatency (t.linksAlong head) = totalLatency bestLinks := by
  obtain ⟨costlier, -⟩ := List.pairwise_cons.mp enumerates.ordered
  obtain ⟨-, headLinks, headTrail⟩ := (enumerates.complete head).mp List.mem_cons_self
  apply le_antisymm
  · have listed := (enumerates.complete bestNames).mpr ⟨bestNodup, bestLinks, bestTrail⟩
    rw [← links_along_trail bestTrail]
    rcases List.mem_cons.mp listed with rfl | later
    · exact le_rfl
    · exact costlier bestNames later
  · rw [links_along_trail headTrail]
    exact least head headLinks headTrail

/-- An early stop loses no tied trail: among all simple trails by ascending latency the scan finds
the first of those that tie with the least one. -/
theorem scan_finds_first_tied (nonneg : ∀ l ∈ t.links, 0 ≤ l.latency)
    {a b : String} {names bestNames : List String} {bestLinks : List (Link Rat)}
    (bestTrail : Trail t.Carries a b bestNames bestLinks) (bestNodup : bestNames.Nodup)
    (least : ∀ others links, Trail t.Carries a b others links →
      totalLatency bestLinks ≤ totalLatency links)
    (ties : t.TiesWith t.latencyRule (·.latency) a b (totalLatency bestLinks) names)
    (first : ∀ others, t.TiesWith t.latencyRule (·.latency) a b (totalLatency bestLinks)
      others → names ≤ others)
    {candidates : List (List String)} (enumerates : t.Enumerates a b candidates) :
    t.scanCandidates candidates = some names := by
  cases candidates with
  | nil =>
      have listed := (enumerates.complete bestNames).mpr ⟨bestNodup, bestLinks, bestTrail⟩
      cases listed
  | cons head rest =>
      obtain ⟨costlier, orderedRest⟩ := List.pairwise_cons.mp enumerates.ordered
      have headCost := enumerates.head_is_least bestTrail bestNodup least
      have headNonneg : 0 ≤ totalLatency (t.linksAlong head) := by
        rw [headCost]
        exact total_latency_nonneg nonneg bestTrail
      obtain ⟨origin, below, firstKept⟩ := keep_tied_is_least headNonneg head rest orderedRest
        costlier
      rw [← headCost] at ties first
      have keptTies : t.TiesWith t.latencyRule (·.latency) a b (totalLatency (t.linksAlong head))
          (t.keepTied (totalLatency (t.linksAlong head)) head rest) := by
        rw [enumerates.ties_iff]
        rcases origin with kept | ⟨member, tied⟩
        · rw [kept]
          exact ⟨List.mem_cons_self, (latency_rule_exact t).tiedSelf _⟩
        · exact ⟨List.mem_cons_of_mem head member, tied⟩
      have keptBelow : t.keepTied (totalLatency (t.linksAlong head)) head rest ≤ names := by
        obtain ⟨listed, tied⟩ := (enumerates.ties_iff _ names).mp ties
        rcases List.mem_cons.mp listed with rfl | later
        · exact below
        · exact firstKept names later tied
      exact congrArg some (le_antisymm keptBelow (first _ keptTies))

/-! ## The path by latency -/

/-- The first of the simple routes that tie with the least latency of all chains, be the links of
these parallel ones or loops. -/
structure FirstOfLeast (t : Topology Rat) (a b : String) (names : List String)
    (links : List (Link Rat)) (least : Rat) : Prop where
  route : t.Route a b names links
  simple : names.Nodup
  isLeast : IsLeast {total | t.Chain a b total} least
  close : Quantity.IsClose t.tieTolerance (totalLatency links) least
  first : ∀ others otherLinks, t.Route a b others otherLinks → others.Nodup →
    Quantity.IsClose t.tieTolerance (totalLatency otherLinks) least → names ≤ others
  scanned : ∀ candidates : List (List String),
    (∀ others, others ∈ candidates ↔ others.Nodup ∧ ∃ otherLinks, t.Route a b others otherLinks) →
    (candidates.Pairwise fun x y =>
      totalLatency (t.linksAlong x) ≤ totalLatency (t.linksAlong y)) →
    t.scanCandidates candidates = some names

/-- The path by latency is complete, least up to the tolerance, and settled by names. -/
theorem latency_path_is_first_of_least (t : Topology Rat) (wellFormed : t.WellFormed)
    (accepted : ∀ l ∈ t.links, 0 ≤ l.latency) (tolerance : 0 ≤ t.tieTolerance) (a b : String)
    (nodeA : a ∈ t.nodeNames) (nodeB : b ∈ t.nodeNames) (differ : a ≠ b) :
    (t.findPath a b "latency" = .ok none ↔ ¬ ∃ total, t.Chain a b total) ∧
    ((∃ total, t.Chain a b total) → ∃ links names least,
      t.findPath a b "latency" = .ok (some links) ∧ t.FirstOfLeast a b names links least) := by
  have trails : (∃ total, t.Chain a b total) ↔
      ∃ names links, Trail t.Carries a b names links := by
    constructor
    · rintro ⟨total, chain⟩
      obtain ⟨names, links, route, -⟩ := chain.has_route accepted
      exact ⟨names, links, (trail_iff_route wellFormed).mpr route⟩
    · rintro ⟨names, links, trail⟩
      exact ⟨_, Route.is_chain ((trail_iff_route wellFormed).mp trail)⟩
  rw [find_latency_path wellFormed accepted nodeA nodeB differ tolerance]
  by_cases reachable : ∃ total, t.Chain a b total
  · obtain ⟨walked, taken, walkedTrail⟩ := trails.mp reachable
    obtain ⟨names, bestNames, bestLinks, found, bestTrail, bestNodup, least, ties, first⟩ :=
      least_trail_is_first wellFormed (latency_rule_exact t) (·.latency) accepted nodeA walkedTrail
    obtain ⟨links, trail, nodup, tied⟩ := id ties
    have searched : t.leastLatency? a b = some names := (least_latency_eq t a b).trans found
    rw [searched, Option.map_some, links_along_trail trail]
    refine ⟨⟨nofun, fun unreachable => absurd reachable unreachable⟩, fun _ => ?_⟩
    refine ⟨links, names, totalLatency bestLinks, rfl, (trail_iff_route wellFormed).mp trail, nodup,
      ⟨Route.is_chain ((trail_iff_route wellFormed).mp bestTrail), fun total chain => ?_⟩,
      (Quantity.tied_iff_is_close tolerance _ _).mp tied,
      fun others otherLinks otherRoute otherNodup close => ?_,
      fun candidates complete ordered => ?_⟩
    · obtain ⟨others, otherLinks, otherRoute, below⟩ := chain.has_route accepted
      exact (least others otherLinks ((trail_iff_route wellFormed).mpr otherRoute)).trans below
    · exact first others ⟨otherLinks, (trail_iff_route wellFormed).mpr otherRoute, otherNodup,
        (Quantity.tied_iff_is_close tolerance _ _).mpr close⟩
    · have enumerates : t.Enumerates a b candidates := by
        refine ⟨fun others => ?_, ordered⟩
        simp only [complete, trail_iff_route wellFormed]
      exact scan_finds_first_tied accepted bestTrail bestNodup least ties first enumerates
  · rw [least_latency_none wellFormed fun trail => reachable (trails.mpr trail)]
    exact ⟨⟨fun _ => reachable, fun _ => rfl⟩, fun chain => absurd chain reachable⟩

def detours : Topology Rat where
  nodes := [Node.fresh "a" ⟨1, 1, 1, 1⟩, Node.fresh "b" ⟨1, 1, 1, 1⟩, Node.fresh "c" ⟨1, 1, 1, 1⟩]
  links := [⟨"ac", "a", "c", 1, 2, 0⟩, ⟨"ab slow", "a", "b", 1, 3, 0⟩, ⟨"ab", "b", "a", 1, 1, 0⟩,
    ⟨"bb", "b", "b", 1, 0, 0⟩, ⟨"bc", "b", "c", 1, 1, 0⟩]
  canonical := [("a", "a"), ("b", "b"), ("c", "c")]
  tieTolerance := 0

theorem detours_well_formed : detours.WellFormed where
  names := by decide
  index := by decide
  ids := by decide
  ends := by decide

theorem detour_path_is_first_of_least :
    (detours.findPath "a" "c" "latency" = .ok none ↔ ¬ ∃ total, detours.Chain "a" "c" total) ∧
    ((∃ total, detours.Chain "a" "c" total) → ∃ links names least,
      detours.findPath "a" "c" "latency" = .ok (some links) ∧
      detours.FirstOfLeast "a" "c" names links least) :=
  latency_path_is_first_of_least detours detours_well_formed (by decide) (by decide) "a" "c"
    (by decide) (by decide) (by decide)

end EdgePlacement.Topology
