import EdgePlacement.Proofs.Network.Registries
import EdgePlacement.Proofs.Paths.FewestHops
import Mathlib.Data.List.Sort

/-!
# Answers do not depend on the order of construction

Two registries with the same nodes and links answer every query about neighbours, links and paths in
the same way, in whatever order and with whatever queries in between they were put together, and
even where a link was given from its other end. Nor does it matter in which order a search lists
paths of equal cost.
-/

namespace EdgePlacement

open EdgePlacement.Text

set_option autoImplicit false

/-! ## The same links -/

/-- The same link, be it given from one end or from the other, and with any counter. -/
structure Link.SameAs {α : Type} (l k : Link α) : Prop where
  id : k.id = l.id
  capacity : k.capacity = l.capacity
  latency : k.latency = l.latency
  ends : k.joins l.first l.second = true

instance {α : Type} [DecidableEq α] (l k : Link α) : Decidable (l.SameAs k) :=
  decidable_of_iff (k.id = l.id ∧ k.capacity = l.capacity ∧ k.latency = l.latency ∧
      k.joins l.first l.second = true)
    ⟨fun ⟨id, capacity, latency, ends⟩ => ⟨id, capacity, latency, ends⟩,
      fun same => ⟨same.id, same.capacity, same.latency, same.ends⟩⟩

def SameLinks {α : Type} (links links' : List (Link α)) : Prop :=
  (∀ l ∈ links, ∃ k ∈ links', l.SameAs k) ∧ ∀ k ∈ links', ∃ l ∈ links, k.SameAs l

instance {α : Type} [DecidableEq α] (links links' : List (Link α)) :
    Decidable (SameLinks links links') :=
  inferInstanceAs (Decidable (_ ∧ _))

namespace Link.SameAs

variable {α : Type} {l k : Link α}

theorem joins (same : l.SameAs k) (a b : String) : k.joins a b = l.joins a b := by
  rcases (k.joins_iff l.first l.second).mp same.ends with ⟨first, second⟩ | ⟨first, second⟩
  · simp only [Link.joins, first, second]
  · simp only [Link.joins, first, second]
    rw [Bool.and_comm, Bool.or_comm, Bool.and_comm (l.first == a)]

theorem proper (same : l.SameAs k) (proper : l.first ≠ l.second) : k.first ≠ k.second := by
  rcases (k.joins_iff l.first l.second).mp same.ends with ⟨first, second⟩ | ⟨first, second⟩
  · rwa [first, second]
  · rw [first, second]
    exact proper.symm

theorem symm (same : l.SameAs k) : k.SameAs l :=
  ⟨same.id.symm, same.capacity.symm, same.latency.symm, (l.joins_ends_iff k).mpr same.ends⟩

theorem precedes {l k l' k' : Link Rat} (same : l.SameAs l') (same' : k.SameAs k')
    (precedes : l.Precedes k) : l'.Precedes k' := by
  unfold Link.Precedes
  rw [same.latency, same'.latency, same.id, same'.id]
  exact precedes

end Link.SameAs

theorem SameLinks.symm {α : Type} {links links' : List (Link α)} (same : SameLinks links links') :
    SameLinks links' links :=
  ⟨same.2, same.1⟩

namespace Topology

section SameLinks

variable {t t' : Topology Rat} (same : SameLinks t.links t'.links)

include same

theorem Preferred.transfer {a b : String} {l l' : Link Rat} (preferred : t.Preferred a b l)
    (stored : l' ∈ t'.links) (sameLink : l.SameAs l') : t'.Preferred a b l' := by
  refine ⟨stored, sameLink.proper preferred.proper, ?_, ?_⟩
  · rw [sameLink.joins]
    exact preferred.joins
  · intro k' stored' proper' joins'
    obtain ⟨k, kStored, sameOther⟩ := same.2 k' stored'
    apply sameLink.precedes sameOther.symm
    apply preferred.least k kStored (sameOther.proper proper')
    rw [sameOther.joins]
    exact joins'

/-- Between any two nodes the same link is preferred. -/
theorem preferred_link_same (wellFormed : t.WellFormed) (wellFormed' : t'.WellFormed)
    (a b : String) : Option.Rel Link.SameAs (t.preferredLink? a b) (t'.preferredLink? a b) := by
  cases found : t.preferredLink? a b with
  | some l =>
      have preferred := preferred_link_preferred found
      obtain ⟨l', stored', sameLink⟩ := same.1 l preferred.stored
      rw [(preferred_link_iff wellFormed' a b l').mpr (preferred.transfer same stored' sameLink)]
      exact .some sameLink
  | none =>
      cases found' : t'.preferredLink? a b with
      | none => exact .none
      | some l' =>
          have preferred := preferred_link_preferred found'
          obtain ⟨l, stored, sameLink⟩ := same.2 l' preferred.stored
          rw [(preferred_link_iff wellFormed a b l).mpr
            (preferred.transfer same.symm stored sameLink)] at found
          cases found

theorem same_views {β : Type} {view : Link Rat → β} (wellFormed : t.WellFormed)
    (wellFormed' : t'.WellFormed) (unaffected : ∀ l k : Link Rat, l.SameAs k → view k = view l) :
    SameOffers view t t' := by
  intro a b
  have agree := preferred_link_same same wellFormed wellFormed' a b
  generalize t.preferredLink? a b = found at agree ⊢
  generalize t'.preferredLink? a b = found' at agree ⊢
  cases agree with
  | none => rfl
  | some sameLink => exact congrArg some (unaffected _ _ sameLink)

end SameLinks

theorem same_sorted_names {t t' : Topology Rat} (wellFormed : t.WellFormed)
    (wellFormed' : t'.WellFormed) (same : ∀ name, name ∈ t'.nodeNames ↔ name ∈ t.nodeNames) :
    sortNames t'.nodeNames = sortNames t.nodeNames := by
  apply (sort_names_ascending wellFormed'.names_distinct).eq_of_mem_iff
  · exact sort_names_ascending wellFormed.names_distinct
  · simpa only [mem_sort_names_iff] using same

theorem neighbours_listed {t : Topology Rat} (wellFormed : t.WellFormed) (name : String) :
    (t.neighbourNames name).Pairwise (· < ·) ∧ ∀ other, other ∈ t.neighbourNames name ↔
      other ≠ name ∧ ∃ l ∈ t.links, l.joins name other = true := by
  constructor
  · exact (sort_names_ascending wellFormed.names_distinct).filter _
  · intro other
    unfold neighbourNames
    rw [List.mem_filter, mem_sort_names_iff, Option.isSome_iff_exists]
    constructor
    · rintro ⟨-, l, found⟩
      obtain ⟨stored, -, joins⟩ := preferred_link_between found
      exact ⟨(preferred_link_ends found).1.symm, l, stored, joins⟩
    · rintro ⟨differ, l, stored, joins⟩
      have proper : l.first ≠ l.second := by
        intro loop
        rcases (l.joins_iff name other).mp joins with ⟨rfl, rfl⟩ | ⟨rfl, rfl⟩
        · exact differ loop.symm
        · exact differ loop
      obtain ⟨k, found⟩ := preferred_link_exists stored proper joins
      exact ⟨(preferred_link_nodes wellFormed found).2, k, found⟩

theorem preferred_link_reversed (t : Topology Rat) (a b : String) :
    t.preferredLink? b a = t.preferredLink? a b := by
  have between : t.linksBetween b a = t.linksBetween a b := by
    unfold linksBetween
    simp only [Link.joins_comm _ b a]
  unfold preferredLink?
  rw [between]

theorem no_preferred_link_iff (t : Topology Rat) (a b : String) :
    t.preferredLink? a b = none ↔ ¬ ∃ l ∈ t.links, l.first ≠ l.second ∧ l.joins a b = true := by
  constructor
  · rintro none ⟨l, stored, proper, joins⟩
    obtain ⟨k, found⟩ := preferred_link_exists stored proper joins
    rw [none] at found
    cases found
  · intro absent
    cases found : t.preferredLink? a b with
    | none => rfl
    | some l =>
        obtain ⟨stored, proper, joins⟩ := preferred_link_between found
        exact absurd ⟨l, stored, proper, joins⟩ absent

/-! ## Any order among paths of equal cost -/

section Searches

variable {t : Topology Rat} (wellFormed : t.WellFormed) {a b : String} (nodeA : a ∈ t.nodeNames)

include wellFormed nodeA

/-- Any list of the simple trails by ascending latency leads to the path that is found. -/
theorem scan_eq_least_latency (nonneg : ∀ l ∈ t.links, 0 ≤ l.latency)
    {candidates : List (List String)} (enumerates : t.Enumerates a b candidates) :
    t.scanCandidates candidates = t.leastLatency? a b := by
  by_cases reachable : ∃ names links, Trail t.Carries a b names links
  · obtain ⟨walked, taken, trail⟩ := reachable
    obtain ⟨names, bestNames, bestLinks, found, bestTrail, bestNodup, least, ties, first⟩ :=
      least_trail_is_first wellFormed (latency_rule_exact t) (·.latency) nonneg nodeA trail
    have searched : t.leastLatency? a b = some names := (least_latency_eq t a b).trans found
    rw [searched]
    exact scan_finds_first_tied nonneg bestTrail bestNodup least ties first enumerates
  · rw [least_latency_none wellFormed reachable]
    cases candidates with
    | nil => rfl
    | cons head rest =>
        obtain ⟨-, links, trail⟩ := (enumerates.complete head).mp List.mem_cons_self
        exact absurd ⟨head, links, trail⟩ reachable

/-- All simple trails of the fewest links. -/
def ListsShortest (t : Topology Rat) (a b : String) (shortest : List (List String)) : Prop :=
  ∀ names, names ∈ shortest ↔ names.Nodup ∧ ∃ links, Trail t.Carries a b names links ∧
    ∀ others otherLinks, Trail t.Carries a b others otherLinks → links.length ≤ otherLinks.length

omit wellFormed nodeA in
theorem ListsShortest.as_short {shortest : List (List String)}
    (lists : t.ListsShortest a b shortest) {names : List String} {links : List (Link Rat)}
    (first : t.FirstOfFewest a b names links) (others : List String) :
    others ∈ shortest ↔
      ∃ otherLinks, Trail t.Carries a b others otherLinks ∧ otherLinks.length = links.length := by
  rw [lists]
  constructor
  · rintro ⟨-, otherLinks, trail, fewest⟩
    exact ⟨otherLinks, trail,
      le_antisymm (fewest names links first.trail) (first.fewest others otherLinks trail)⟩
  · rintro ⟨otherLinks, trail, length⟩
    have fewest : ∀ names' links', Trail t.Carries a b names' links' →
        otherLinks.length ≤ links'.length := by
      intro names' links' trail'
      rw [length]
      exact first.fewest names' links' trail'
    exact ⟨trail.nodup_of_fewest fewest, otherLinks, trail, fewest⟩

theorem fewest_hops_is_least {shortest : List (List String)}
    (lists : t.ListsShortest a b shortest) {names : List String} (listed : names ∈ shortest)
    (least : ∀ others ∈ shortest, names ≤ others) : t.fewestHops? a b = some names := by
  obtain ⟨-, links, trail, -⟩ := (lists names).mp listed
  obtain ⟨found, foundLinks, search, first⟩ := fewest_hops_found wellFormed nodeA trail
  have foundLeast := first.least_as_short (lists.as_short first)
  rw [List.min?_eq_some_iff.mpr ⟨listed, least⟩] at foundLeast
  rw [search, foundLeast]

theorem no_fewest_hops (lists : t.ListsShortest a b []) : t.fewestHops? a b = none := by
  apply fewest_hops_none wellFormed
  rintro ⟨walked, taken, trail⟩
  obtain ⟨found, foundLinks, -, first⟩ := fewest_hops_found wellFormed nodeA trail
  have listed := (lists.as_short first found).mpr ⟨foundLinks, first.trail, rfl⟩
  cases listed

end Searches

end Topology

/-! ## What registries answer -/

namespace Registry

/-- What a registry answers about two nodes: what its topology says, whether a routing graph is
remembered or not, and in terms of nodes and links alone. -/
structure Answers (r : Registry Rat) (a b : String) : Prop where
  linkShown : (linkBetween a b r).1 = .ok (r.topology.preferredLink? a b)
  neighboursShown : (neighbours a r).1 = r.topology.neighbours a
  pathShown : ∀ weight, (findPath a b weight r).1 = r.topology.findPath a b weight
  /-- The least by latency and id of the links that join the nodes and are no loops. -/
  link : ∀ l, (linkBetween a b r).1 = .ok (some l) ↔ r.topology.Preferred a b l
  noLink : (linkBetween a b r).1 = .ok none ↔
    ¬ ∃ l ∈ r.links, l.first ≠ l.second ∧ l.joins a b = true
  reversed : (linkBetween b a r).1 = (linkBetween a b r).1
  neighbours : a ∈ r.nodes.keys → ∃ names, (neighbours a r).1 = .ok names ∧
    names.Pairwise (· < ·) ∧
    ∀ other, other ∈ names ↔ other ≠ a ∧ ∃ l ∈ r.links, l.joins a other = true
  /-- A scan of the simple paths by ascending latency, in whatever order equal ones come. -/
  byLatency : a ∈ r.nodes.keys → b ∈ r.nodes.keys → a ≠ b → 0 ≤ r.tieTolerance →
    (∀ l ∈ r.links, 0 ≤ l.latency) → ∀ candidates, r.topology.Enumerates a b candidates →
    (findPath a b "latency" r).1 =
      .ok ((r.topology.scanCandidates candidates).map r.topology.linksAlong)
  /-- The first by name of the paths with the fewest links, in whatever order these come. -/
  byHops : a ∈ r.nodes.keys → b ∈ r.nodes.keys → a ≠ b →
    ∀ shortest, r.topology.ListsShortest a b shortest →
    (shortest = [] → (findPath a b "hops" r).1 = .ok none) ∧
    ∀ names ∈ shortest, (∀ others ∈ shortest, names ≤ others) →
      (findPath a b "hops" r).1 = .ok (some (r.topology.linksAlong names))

structure SameAnswers (r r' : Registry Rat) (a b : String) : Prop where
  link : ∃ found found', (linkBetween a b r).1 = .ok found ∧ (linkBetween a b r').1 = .ok found' ∧
    Option.Rel Link.SameAs found found'
  neighbours : (neighbours a r').1 = (neighbours a r).1
  path : ∀ weight, (findPath a b weight r').1.map (Option.map (List.map (·.id))) =
    (findPath a b weight r).1.map (Option.map (List.map (·.id)))

namespace Settled

variable {r r' : Registry Rat}

theorem find_path_answer (settled : r.Settled) (a b weight : String) :
    (findPath a b weight r).1 = r.topology.findPath a b weight := by
  rcases settled.fresh.find_path_run settled.toInStep a b weight with ending | ending
  · rw [ending]
  · rw [ending]

theorem answers (settled : r.Settled) (a b : String) : r.Answers a b := by
  have inStep := settled.toInStep
  have wellFormed := inStep.well_formed
  have link : ∀ a b, (linkBetween a b r).1 = .ok (r.topology.preferredLink? a b) := by
    intro a b
    rw [settled.fresh.link_between_run inStep]
  have isNode : ∀ {name}, name ∈ r.nodes.keys → name ∈ r.topology.nodeNames := by
    intro name listed
    exact inStep.node_names ▸ listed
  constructor
  case linkShown => exact link a b
  case neighboursShown => rw [settled.fresh.neighbours_run inStep]
  case pathShown => exact settled.find_path_answer a b
  case link =>
      intro l
      rw [link, ← Topology.preferred_link_iff wellFormed]
      simp
  case noLink =>
      rw [link, Except.ok.injEq]
      exact r.topology.no_preferred_link_iff a b
  case reversed => rw [link, link, Topology.preferred_link_reversed]
  case neighbours =>
      intro node
      have known := (Topology.has_node_iff r.topology a).mpr (isNode node)
      refine ⟨r.topology.neighbourNames a, ?_, Topology.neighbours_listed wellFormed a⟩
      rw [settled.fresh.neighbours_run inStep]
      simp only [Topology.neighbours, known, if_true]
  case byLatency =>
      intro nodeA nodeB differ tolerance nonneg candidates enumerates
      rw [settled.find_path_answer,
        Topology.find_latency_path wellFormed nonneg (isNode nodeA) (isNode nodeB) differ tolerance,
        Topology.scan_eq_least_latency wellFormed (isNode nodeA) nonneg enumerates]
  case byHops =>
      intro nodeA nodeB differ shortest lists
      rw [settled.find_path_answer,
        Topology.find_hop_path r.topology (isNode nodeA) (isNode nodeB) differ]
      constructor
      · rintro rfl
        rw [Topology.no_fewest_hops wellFormed (isNode nodeA) lists]
        rfl
      · intro names listed least
        rw [Topology.fewest_hops_is_least wellFormed (isNode nodeA) lists listed least]
        rfl

theorem same_answers (settled : r.Settled) (settled' : r'.Settled)
    (tolerance : r'.tieTolerance = r.tieTolerance)
    (sameNodes : ∀ name, name ∈ r'.nodes.keys ↔ name ∈ r.nodes.keys)
    (sameLinks : SameLinks r.links r'.links) (a b : String) : r.SameAnswers r' a b := by
  have wellFormed := settled.toInStep.well_formed
  have wellFormed' := settled'.toInStep.well_formed
  have same : SameLinks r.topology.links r'.topology.links := sameLinks
  have names : sortNames r'.topology.nodeNames = sortNames r.topology.nodeNames := by
    apply Topology.same_sorted_names wellFormed wellFormed'
    simpa only [settled.node_names, settled'.node_names] using sameNodes
  have ids : Topology.SameOffers (·.id) r.topology r'.topology :=
    Topology.same_views same wellFormed wellFormed' fun _ _ sameLink => sameLink.id
  have latencies : Topology.SameOffers (·.latency) r.topology r'.topology :=
    Topology.same_views same wellFormed wellFormed' fun _ _ sameLink => sameLink.latency
  constructor
  case link =>
      refine ⟨r.topology.preferredLink? a b, r'.topology.preferredLink? a b, ?_, ?_, ?_⟩
      · rw [settled.fresh.link_between_run settled.toInStep]
      · rw [settled'.fresh.link_between_run settled'.toInStep]
      · exact Topology.preferred_link_same same wellFormed wellFormed' a b
  case neighbours =>
      rw [settled.fresh.neighbours_run settled.toInStep,
        settled'.fresh.neighbours_run settled'.toInStep]
      simp only [Topology.neighbours, Topology.has_node_congr names,
        Topology.neighbour_names_congr names ids]
  case path =>
      intro weight
      rw [settled.find_path_answer, settled'.find_path_answer]
      exact Topology.find_path_congr names tolerance ids latencies a b weight

end Settled

/-- Registries that end with the same nodes and links give the same answers, and these depend on
nothing else. -/
theorem answers_ignore_construction (tieTolerance : Rat) (calls calls' : List (Call Rat))
    (sameNodes : ∀ name, name ∈ (ofCalls tieTolerance calls').nodes.keys ↔
      name ∈ (ofCalls tieTolerance calls).nodes.keys)
    (sameLinks : SameLinks (ofCalls tieTolerance calls).links (ofCalls tieTolerance calls').links)
    (a b : String) :
    (ofCalls tieTolerance calls).Answers a b ∧ (ofCalls tieTolerance calls').Answers a b ∧
      (ofCalls tieTolerance calls).SameAnswers (ofCalls tieTolerance calls') a b := by
  obtain ⟨settled, tolerance⟩ := calls_settle tieTolerance calls
  obtain ⟨settled', tolerance'⟩ := calls_settle tieTolerance calls'
  refine ⟨settled.answers a b, settled'.answers a b, ?_⟩
  exact settled.same_answers settled' (tolerance'.trans tolerance.symm) sameNodes sameLinks a b

def callsInOrder : List (Call Rat) :=
  [.addNode (Node.fresh "a" 0), .addNode (Node.fresh "b" 0),
    .addLink ⟨"slow", "a", "b", 10, 2, 0⟩, .linkBetween "a" "b",
    .addLink ⟨"fast", "a", "b", 10, 1, 0⟩, .addLink ⟨"bc", "b", "c", 10, 1, 0⟩,
    .addNode (Node.fresh "c" 0), .addLink ⟨"bc", "b", "c", 10, 1, 0⟩,
    .addLink ⟨"ac", "a", "c", 10, 3, 0⟩]

def callsInReverse : List (Call Rat) :=
  [.addNode (Node.fresh "c" 0), .addNode (Node.fresh "b" 0), .addNode (Node.fresh "a" 0),
    .addNode (Node.fresh "A" 0), .addLink ⟨"ac", "C", "A", 10, 3, 0⟩, .findPath "a" "b" "hops",
    .addLink ⟨"bc", "c", "b", 10, 1, 0⟩, .addLink ⟨"fast", "B", "a", 10, 1, 0⟩, .neighbours "a",
    .addLink ⟨"fast", "a", "c", 10, 0, 0⟩, .addLink ⟨"slow", "b", "a", 10, 2, 0⟩]

theorem answers_ignore_reversal :
    SameLinks (ofCalls 0 callsInOrder).links (ofCalls 0 callsInReverse).links ∧
    (ofCalls 0 callsInOrder).links ≠ (ofCalls 0 callsInReverse).links ∧
    (ofCalls 0 callsInOrder).SameAnswers (ofCalls 0 callsInReverse) "a" "c" ∧
    (findPath "a" "c" "latency" (ofCalls 0 callsInReverse)).1.map
      (Option.map (List.map (·.id))) = .ok (some ["fast", "bc"]) := by
  have reordered : (ofCalls 0 callsInReverse).nodes.keys.Perm
      (ofCalls 0 callsInOrder).nodes.keys := by decide +kernel
  have sameLinks : SameLinks (ofCalls 0 callsInOrder).links (ofCalls 0 callsInReverse).links := by
    decide +kernel
  obtain ⟨-, -, same⟩ := answers_ignore_construction 0 callsInOrder callsInReverse
    (fun _ => reordered.mem_iff) sameLinks "a" "c"
  refine ⟨sameLinks, by decide +kernel, same, ?_⟩
  rw [same.path]
  cbv

end Registry
end EdgePlacement
