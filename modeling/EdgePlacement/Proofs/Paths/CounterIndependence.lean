import EdgePlacement.Proofs.Network.Layout
import EdgePlacement.Proofs.Paths.PathInputs

/-!
# Paths do not depend on the counters

Nothing that decides about a path reads how much of a link is in use. Topologies of one layout
therefore find the same paths, each with its own counters.
-/

namespace EdgePlacement

open EdgePlacement.Text

set_option autoImplicit false

variable {α : Type} [Quantity α]

namespace Topology

theorem reset_links_between (t : Topology α) (a b : String) :
    t.resetUsage.linksBetween a b = (t.linksBetween a b).map Link.reset := by
  unfold linksBetween resetUsage
  rw [List.filter_map]
  rfl

theorem reset_kept_link (first : Link α) (rest : List (Link α)) :
    (rest.map Link.reset).foldl (fun best l => if best.keptOver l then best else l) first.reset =
      (rest.foldl (fun best l => if best.keptOver l then best else l) first).reset := by
  induction rest generalizing first with
  | nil => rfl
  | cons offer rest ih =>
      have comparison : first.reset.keptOver offer.reset = first.keptOver offer := rfl
      rw [List.map_cons, List.foldl_cons, List.foldl_cons]
      by_cases kept : first.keptOver offer = true
      · rw [if_pos (comparison.trans kept), if_pos kept]
        exact ih first
      · rw [if_neg (comparison ▸ kept), if_neg kept]
        exact ih offer

theorem reset_preferred_link (t : Topology α) (a b : String) :
    t.resetUsage.preferredLink? a b = (t.preferredLink? a b).map Link.reset := by
  unfold preferredLink?
  rw [reset_links_between]
  cases t.linksBetween a b with
  | nil => rfl
  | cons first rest => exact congrArg some (reset_kept_link first rest)

theorem same_layout_offers {t t' : Topology α} (same : t'.resetUsage = t.resetUsage) :
    SameOffers Link.reset t t' := by
  intro a b
  rw [← reset_preferred_link, same, reset_preferred_link]

/-- In another state of the counters the same path is found, link by link. -/
theorem find_path_of_same_layout [PathChoice α] {t t' : Topology α}
    (same : t'.resetUsage = t.resetUsage) {a b weight : String} {path : Option (List (Link α))}
    (found : t.findPath a b weight = .ok path) :
    ∃ path', t'.findPath a b weight = .ok path' ∧
      path'.map (·.map Link.reset) = path.map (·.map Link.reset) := by
  have names : sortNames t'.nodeNames = sortNames t.nodeNames := by
    rw [same_layout_node_names same]
  have tolerance : t'.resetUsage.tieTolerance = t.resetUsage.tieTolerance := by rw [same]
  have offers := same_layout_offers same
  have latencies : SameOffers (·.latency) t t' := by
    apply offers.imp
    intro l k agree
    have unread : l.reset.latency = k.reset.latency := by rw [agree]
    exact unread
  have found' := find_path_congr names tolerance offers latencies a b weight
  rw [found] at found'
  cases other : t'.findPath a b weight with
  | error fault =>
      rw [other] at found'
      cases found'
  | ok path' =>
      rw [other] at found'
      exact ⟨path', rfl, Except.ok.inj found'⟩

end Topology
end EdgePlacement
