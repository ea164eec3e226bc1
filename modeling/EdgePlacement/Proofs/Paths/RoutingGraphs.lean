import Mathlib.Data.List.Induction
import EdgePlacement.Network.RoutingGraph
import EdgePlacement.Proofs.Paths.CounterIndependence
import EdgePlacement.Proofs.Paths.PreferredLinks

/-!
# Routing graphs show the paths of their topology

Offering the links one after the other keeps the preferred one of each pair. A routing graph
therefore answers every query as the topology does, and goes on doing so while the counters change,
for as long as no node and no link is added.
-/

namespace EdgePlacement

open EdgePlacement.Text

set_option autoImplicit false

variable {α : Type}

/-! ## Pairs of ends -/

namespace Link

theorem joins_comm (l : Link α) (a b : String) : l.joins a b = l.joins b a := by
  unfold joins
  exact Bool.or_comm _ _

theorem joins_ends_iff (l k : Link α) :
    l.joins k.first k.second = true ↔ k.joins l.first l.second = true := by
  rw [joins_iff, joins_iff]
  constructor
  · rintro (⟨first, second⟩ | ⟨first, second⟩)
    · exact Or.inl ⟨first.symm, second.symm⟩
    · exact Or.inr ⟨second.symm, first.symm⟩
  · rintro (⟨first, second⟩ | ⟨first, second⟩)
    · exact Or.inl ⟨first.symm, second.symm⟩
    · exact Or.inr ⟨second.symm, first.symm⟩

theorem joins_same_pair {k : Link α} {a b : String} (pair : k.joins a b = true) (l : Link α) :
    l.joins k.first k.second = l.joins a b := by
  rcases (k.joins_iff a b).mp pair with ⟨rfl, rfl⟩ | ⟨rfl, rfl⟩
  · rfl
  · exact l.joins_comm _ _

def serves (a b : String) (l : Link α) : Bool :=
  !l.isLoop && l.joins a b

variable [Quantity α]

def offeredTo (offer : Link α) : Option (Link α) → Link α
  | none => offer
  | some best => if best.keptOver offer then best else offer

end Link

namespace Topology

variable [Quantity α]

/-! ## Offers -/

/-- One more link is one more offer to its pair, and no matter to any other. -/
theorem preferred_link_append (t : Topology α) (links : List (Link α)) (offer : Link α)
    (a b : String) :
    ({ t with links := links ++ [offer] } : Topology α).preferredLink? a b =
      if offer.serves a b then
        some (offer.offeredTo (({ t with links := links } : Topology α).preferredLink? a b))
      else ({ t with links := links } : Topology α).preferredLink? a b := by
  have grown : ({ t with links := links ++ [offer] } : Topology α).linksBetween a b =
      ({ t with links := links } : Topology α).linksBetween a b ++
        if offer.serves a b then [offer] else [] := by
    simp [linksBetween, Link.serves, List.filter_append, List.filter_cons]
  unfold preferredLink?
  rw [grown]
  by_cases serves : offer.serves a b = true
  · rw [if_pos serves, if_pos serves]
    cases ({ t with links := links } : Topology α).linksBetween a b with
    | nil => rfl
    | cons first rest => simp [Link.offeredTo]
  · rw [if_neg serves, if_neg serves, List.append_nil]

section Offer

variable {kept : List (Link α)} {offer : Link α} {a b : String}

omit [Quantity α] in
theorem serves_own_pair (serves : offer.serves a b = true) (l : Link α) :
    l.joins offer.first offer.second = l.serves a b := by
  obtain ⟨proper, pair⟩ : offer.isLoop = false ∧ offer.joins a b = true := by
    simpa [Link.serves] using serves
  have samePair := Link.joins_same_pair pair l
  by_cases joined : l.joins a b = true
  · have ends := (Link.joins_ends_iff l offer).mp (samePair.trans joined)
    have lProper : l.isLoop = false := by
      rw [← Bool.not_eq_true, Link.is_loop_iff] at proper ⊢
      intro same
      apply proper
      rcases (offer.joins_iff _ _).mp ends with ⟨first, second⟩ | ⟨first, second⟩
      · rw [first, second, same]
      · rw [first, second, same]
    simp [Link.serves, samePair, joined, lProper]
  · simp [Link.serves, samePair, joined]

theorem offer_to_own_pair (best : Option (Link α))
    (sole : kept.filter (Link.serves a b) = best.toList) (serves : offer.serves a b = true) :
    (offerLink kept offer).filter (Link.serves a b) = [offer.offeredTo best] := by
  have own := serves_own_pair serves
  have proper : ¬ offer.isLoop = true := by
    intro loop
    simp [Link.serves, loop] at serves
  have found : (kept.find? fun l => l.joins offer.first offer.second) = best := by
    have asHead : (kept.filter (Link.serves a b)).head? = best := by
      rw [sole]
      cases best <;> rfl
    rw [← asHead, List.head?_filter]
    congr 1
    funext l
    exact own l
  unfold offerLink
  rw [if_neg proper, found]
  cases best with
  | none =>
      dsimp only
      rw [List.filter_append, sole]
      simp [serves, Link.offeredTo]
  | some best =>
      dsimp only
      by_cases better : best.keptOver offer = true
      · simp [sole, Link.offeredTo, better]
      · have stillServes : (Link.serves a b ∘
            fun l => if l.joins offer.first offer.second = true then offer else l) =
              Link.serves a b := by
          funext l
          by_cases old : l.serves a b = true
          · simp [own, old, serves]
          · simp [own, old]
        have bestServes : best.serves a b = true := by
          have member : best ∈ kept.filter (Link.serves a b) := by simp [sole]
          exact List.of_mem_filter member
        rw [if_neg better, List.filter_map, stillServes, sole]
        simp [Link.offeredTo, better, own, bestServes]

theorem offer_to_other_pair (unserving : offer.serves a b = false) :
    (offerLink kept offer).filter (Link.serves a b) = kept.filter (Link.serves a b) := by
  unfold offerLink
  by_cases loop : offer.isLoop = true
  · rw [if_pos loop]
  rw [if_neg loop]
  have elsewhere : ∀ l : Link α, l.joins offer.first offer.second = true →
      l.serves a b = false := by
    intro l joined
    have apart : offer.joins a b = false := by simpa [Link.serves, loop] using unserving
    have samePair := Link.joins_same_pair ((Link.joins_ends_iff l offer).mp joined)
    by_cases here : l.joins a b = true
    · have pair := (Link.joins_same_pair here offer).symm.trans
        ((Link.joins_ends_iff l offer).mp joined)
      simp [pair] at apart
    · simp [Link.serves, here]
  split
  · simp [List.filter_append, unserving]
  · split_ifs with better
    · rfl
    · have stillServes : (Link.serves a b ∘
          fun l => if l.joins offer.first offer.second = true then offer else l) =
            Link.serves a b := by
        funext l
        by_cases old : l.joins offer.first offer.second = true
        · simp [old, unserving, elsewhere l old]
        · simp [old]
      rw [List.filter_map, stillServes]
      conv_rhs => rw [← List.map_id (kept.filter (Link.serves a b))]
      apply List.map_congr_left
      intro l member
      apply if_neg
      intro joined
      simp [elsewhere l joined] at member

end Offer

/-- Of the links of a pair the preferred one is kept, and it alone. -/
theorem kept_links_serve (t : Topology α) (a b : String) :
    t.keptLinks.filter (Link.serves a b) = (t.preferredLink? a b).toList := by
  have offered : ∀ links : List (Link α), (links.foldl offerLink []).filter (Link.serves a b) =
      (({ t with links := links } : Topology α).preferredLink? a b).toList := by
    intro links
    induction links using List.reverseRecOn with
    | nil => rfl
    | append_singleton links offer ih =>
        rw [List.foldl_append, List.foldl_cons, List.foldl_nil, preferred_link_append]
        by_cases serves : offer.serves a b = true
        · rw [if_pos serves, offer_to_own_pair _ ih serves]
          rfl
        · rw [if_neg serves, offer_to_other_pair (Bool.eq_false_iff.mpr serves), ih]
  exact offered t.links

theorem kept_link_preferred (t : Topology α) (a b : String) :
    ({ t with links := t.keptLinks } : Topology α).preferredLink? a b = t.preferredLink? a b := by
  have sole : ({ t with links := t.keptLinks } : Topology α).linksBetween a b =
      (t.preferredLink? a b).toList := kept_links_serve t a b
  conv_lhs => unfold preferredLink?
  rw [sole]
  cases t.preferredLink? a b <;> rfl

theorem kept_link_offers (t : Topology α) : SameOffers id t { t with links := t.keptLinks } := by
  intro a b
  rw [kept_link_preferred]

theorem offer_link_origin {kept : List (Link α)} {offer l : Link α}
    (member : l ∈ offerLink kept offer) : l ∈ kept ∨ l = offer := by
  unfold offerLink at member
  split_ifs at member with loop
  · exact Or.inl member
  · split at member
    · simpa using member
    · split_ifs at member with better
      · exact Or.inl member
      · obtain ⟨origin, old, rfl⟩ := List.mem_map.mp member
        split_ifs with replaced
        · exact Or.inr rfl
        · exact Or.inl old

theorem kept_link_stored {t : Topology α} {l : Link α} (kept : l ∈ t.keptLinks) : l ∈ t.links := by
  have origin : ∀ links : List (Link α), l ∈ links.foldl offerLink [] → l ∈ links := by
    intro links
    induction links using List.reverseRecOn with
    | nil => exact id
    | append_singleton links offer ih =>
        intro member
        rw [List.foldl_append, List.foldl_cons, List.foldl_nil] at member
        rcases offer_link_origin member with early | rfl
        · exact List.mem_append_left _ (ih early)
        · simp
  exact origin t.links kept

/-! ## What a routing graph shows -/

theorem reset_offer_link (kept : List (Link α)) (offer : Link α) :
    offerLink (kept.map Link.reset) offer.reset = (offerLink kept offer).map Link.reset := by
  have loop : offer.reset.isLoop = offer.isLoop := rfl
  have search : (kept.map Link.reset).find?
      (fun l => l.joins offer.reset.first offer.reset.second) =
        (kept.find? fun l => l.joins offer.first offer.second).map Link.reset := by
    rw [List.find?_map]
    rfl
  unfold offerLink
  rw [loop, search]
  by_cases loops : offer.isLoop = true
  · rw [if_pos loops, if_pos loops]
  rw [if_neg loops, if_neg loops]
  cases kept.find? fun l => l.joins offer.first offer.second with
  | none => simp
  | some best =>
      have comparison : best.reset.keptOver offer.reset = best.keptOver offer := rfl
      dsimp only [Option.map_some]
      rw [comparison]
      by_cases better : best.keptOver offer = true
      · rw [if_pos better, if_pos better]
      · rw [if_neg better, if_neg better, List.map_map, List.map_map]
        apply List.map_congr_left
        intro l _
        have pair : l.reset.joins offer.reset.first offer.reset.second =
            l.joins offer.first offer.second := rfl
        simp only [Function.comp_apply, pair]
        split_ifs <;> rfl

theorem reset_kept_links (t : Topology α) :
    t.resetUsage.keptLinks = t.keptLinks.map Link.reset := by
  have offered : ∀ links kept : List (Link α),
      (links.map Link.reset).foldl offerLink (kept.map Link.reset) =
        (links.foldl offerLink kept).map Link.reset := by
    intro links
    induction links with
    | nil => exact fun _ => rfl
    | cons offer rest ih =>
        intro kept
        rw [List.map_cons, List.foldl_cons, List.foldl_cons, reset_offer_link, ih]
  exact offered t.links []

theorem routing_of_same_layout {t t' : Topology α} (same : t'.resetUsage = t.resetUsage) :
    t'.routing = t.routing := by
  have unread : ∀ t : Topology α, t.resetUsage.routing = t.routing := by
    intro t
    unfold routing
    rw [reset_node_names, reset_kept_links, List.map_map]
    rfl
  rw [← unread t', same, unread t]

theorem seen_by_own_routing {t : Topology α} (wellFormed : t.WellFormed) :
    t.seenBy t.routing = { t with links := t.keptLinks } := by
  have nodes : (t.nodes.filter fun n => t.nodeNames.contains n.name) = t.nodes := by
    apply List.filter_eq_self.mpr
    intro n member
    exact List.contains_iff_mem.mpr (List.mem_map_of_mem member)
  have links : (t.keptLinks.map (·.id)).filterMap t.link? = t.keptLinks := by
    rw [List.filterMap_map]
    have found : ∀ l ∈ t.keptLinks, (t.link? ∘ Link.id) l = some l :=
      fun l kept => find_by_key Link.id wellFormed.ids (kept_link_stored kept)
    rw [List.filterMap_congr found, List.filterMap_some]
  unfold seenBy routing
  rw [nodes, links]

section Queries

variable {t earlier : Topology α} (wellFormed : t.WellFormed)
  (same : earlier.resetUsage = t.resetUsage)

include wellFormed same

theorem preferred_link_seen (a b : String) :
    (t.seenBy earlier.routing).preferredLink? a b = t.preferredLink? a b := by
  rw [routing_of_same_layout same, seen_by_own_routing wellFormed, kept_link_preferred]

theorem neighbours_seen (name : String) :
    (t.seenBy earlier.routing).neighbours name = t.neighbours name := by
  have names : sortNames ({ t with links := t.keptLinks } : Topology α).nodeNames =
      sortNames t.nodeNames := rfl
  rw [routing_of_same_layout same, seen_by_own_routing wellFormed]
  unfold neighbours
  rw [neighbour_names_congr names t.kept_link_offers name]
  rfl

/-- A routing graph that was built in an earlier state of the counters finds the paths of today. -/
theorem find_path_seen [PathChoice α] (a b weight : String) :
    (t.seenBy earlier.routing).findPath a b weight = t.findPath a b weight := by
  have latencies : SameOffers (·.latency) t { t with links := t.keptLinks } :=
    t.kept_link_offers.imp fun l k agree => congrArg Link.latency agree
  have names : sortNames ({ t with links := t.keptLinks } : Topology α).nodeNames =
      sortNames t.nodeNames := rfl
  have found := find_path_congr names rfl t.kept_link_offers latencies a b weight
  rw [routing_of_same_layout same, seen_by_own_routing wellFormed]
  simpa [Except.map_id] using found

end Queries

end Topology
end EdgePlacement
