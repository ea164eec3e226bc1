import Mathlib.Algebra.Order.Ring.Rat
import Mathlib.Data.Prod.Lex
import EdgePlacement.Network.Paths
import EdgePlacement.Proofs.Network.WellFormed
import EdgePlacement.Proofs.Text.NameOrder

/-!
# The preferred link between two nodes

Among the links that join two different nodes the preferred one has the least latency, and of those
the least id. It does not depend on the direction in which the nodes are given.
-/

namespace EdgePlacement

open EdgePlacement.Text

set_option autoImplicit false

def Link.Precedes (l k : Link Rat) : Prop :=
  l.latency < k.latency ∨ l.latency = k.latency ∧ l.id ≤ k.id

def Link.rank {α β : Type} (value : α → β) (l : Link α) : β ×ₗ String :=
  toLex (value l.latency, l.id)

theorem precedes_iff_rank (l k : Link Rat) : l.Precedes k ↔ l.rank id ≤ k.rank id := by
  unfold Link.Precedes Link.rank
  rw [Prod.Lex.toLex_le_toLex]
  rfl

namespace Link

theorem kept_over_iff_rank {α β : Type} [Quantity α] [LinearOrder β] (value : α → β) {l k : Link α}
    (le : l.latency ≤ k.latency ↔ value l.latency ≤ value k.latency)
    (beq : (l.latency == k.latency) = true ↔ value l.latency = value k.latency) :
    l.keptOver k = true ↔ l.rank value ≤ k.rank value := by
  have ids : (!namePrecedes k.id l.id) = true ↔ l.id ≤ k.id := by
    rw [Bool.not_eq_true', ← Bool.not_eq_true, name_precedes_iff, not_lt]
  unfold keptOver rank
  rw [Prod.Lex.toLex_le_toLex]
  by_cases same : value l.latency = value k.latency
  · rw [if_pos (beq.mpr same), ids]
    simp [same]
  · rw [if_neg fun equal => same (beq.mp equal), decide_eq_true_iff, le, le_iff_lt_or_eq]
    simp [same]

theorem precedes_latency {l k : Link Rat} (precedes : l.Precedes k) : l.latency ≤ k.latency := by
  rcases precedes with less | ⟨same, -⟩
  · exact less.le
  · exact same.le

theorem precedes_antisymm_id {l k : Link Rat} (precedes : l.Precedes k)
    (succeeds : k.Precedes l) : l.id = k.id := by
  rw [precedes_iff_rank] at precedes succeeds
  have ranks := toLex.injective (le_antisymm precedes succeeds)
  exact congrArg Prod.snd ranks

theorem joins_iff {α : Type} (l : Link α) (a b : String) :
    l.joins a b = true ↔ l.first = a ∧ l.second = b ∨ l.first = b ∧ l.second = a := by
  simp [joins]

theorem is_loop_iff {α : Type} (l : Link α) : l.isLoop = true ↔ l.first = l.second := by
  simp [isLoop]

end Link

namespace Topology

section Offers

variable {α : Type} [Quantity α] {t : Topology α} {a b : String} {l : Link α}

omit [Quantity α] in
theorem mem_links_between_iff :
    l ∈ t.linksBetween a b ↔ l ∈ t.links ∧ l.first ≠ l.second ∧ l.joins a b = true := by
  unfold linksBetween
  rw [List.mem_filter, Bool.and_eq_true, Bool.not_eq_true', ← Bool.not_eq_true, Link.is_loop_iff]

theorem kept_link_is_offered (first : Link α) (rest : List (Link α)) :
    (rest.foldl (fun best l => if best.keptOver l then best else l) first) ∈ first :: rest := by
  induction rest generalizing first with
  | nil => exact List.mem_cons_self
  | cons offer rest ih =>
      rw [List.foldl_cons]
      split_ifs
      · rcases List.mem_cons.mp (ih first) with same | later
        · exact List.mem_cons.mpr (Or.inl same)
        · exact List.mem_cons_of_mem _ (List.mem_cons_of_mem _ later)
      · exact List.mem_cons_of_mem _ (ih offer)

theorem preferred_link_between (found : t.preferredLink? a b = some l) :
    l ∈ t.links ∧ l.first ≠ l.second ∧ l.joins a b = true := by
  unfold preferredLink? at found
  split at found
  · cases found
  · rename_i first rest offers
    cases found
    rw [← mem_links_between_iff, offers]
    exact kept_link_is_offered first rest

theorem preferred_link_exists (stored : l ∈ t.links) (proper : l.first ≠ l.second)
    (joins : l.joins a b = true) : ∃ k, t.preferredLink? a b = some k := by
  have member := mem_links_between_iff.mpr ⟨stored, proper, joins⟩
  unfold preferredLink?
  split
  · rename_i none
    rw [none] at member
    cases member
  · exact ⟨_, rfl⟩

theorem preferred_link_ends (found : t.preferredLink? a b = some l) :
    a ≠ b ∧ (l.first = a ∧ l.second = b ∨ l.first = b ∧ l.second = a) := by
  obtain ⟨-, proper, joins⟩ := preferred_link_between found
  have ends := (l.joins_iff a b).mp joins
  refine ⟨fun same => proper ?_, ends⟩
  rcases ends with ⟨first, second⟩ | ⟨first, second⟩
  · rw [first, second, same]
  · rw [first, second, same]

theorem preferred_link_nodes (wellFormed : t.WellFormed) (found : t.preferredLink? a b = some l) :
    a ∈ t.nodeNames ∧ b ∈ t.nodeNames := by
  obtain ⟨first, second⟩ := wellFormed.ends l (preferred_link_between found).1
  rcases (preferred_link_ends found).2 with ⟨rfl, rfl⟩ | ⟨rfl, rfl⟩
  · exact ⟨first, second⟩
  · exact ⟨second, first⟩

end Offers

section Ranks

variable {α β : Type} [Quantity α] [LinearOrder β] {value : α → β}

/-- The latencies of the links compare as what they stand for. -/
structure Ranked (links : List (Link α)) (value : α → β) : Prop where
  le : ∀ l ∈ links, ∀ k ∈ links, l.latency ≤ k.latency ↔ value l.latency ≤ value k.latency
  beq : ∀ l ∈ links, ∀ k ∈ links,
    (l.latency == k.latency) = true ↔ value l.latency = value k.latency

theorem Ranked.subset {links links' : List (Link α)} (ranked : Ranked links value)
    (subset : links' ⊆ links) : Ranked links' value where
  le l listed k listed' := ranked.le l (subset listed) k (subset listed')
  beq l listed k listed' := ranked.beq l (subset listed) k (subset listed')

/-- The link that is left over after all offers ranks before every one of them. -/
theorem kept_link_is_least (first : Link α) (rest : List (Link α))
    (ranked : Ranked (first :: rest) value) : ∀ l ∈ first :: rest,
      (rest.foldl (fun best l => if best.keptOver l then best else l) first).rank value ≤
        l.rank value := by
  induction rest generalizing first with
  | nil =>
      intro l member
      obtain rfl : l = first := by simpa using member
      exact le_rfl
  | cons offer rest ih =>
      have decided : first.keptOver offer = true ↔ first.rank value ≤ offer.rank value :=
        Link.kept_over_iff_rank value
          (ranked.le _ List.mem_cons_self _ (List.mem_cons_of_mem _ List.mem_cons_self))
          (ranked.beq _ List.mem_cons_self _ (List.mem_cons_of_mem _ List.mem_cons_self))
      rw [List.foldl_cons]
      split_ifs with kept
      · have before := ih first (ranked.subset (by simp))
        intro l offered
        rcases List.mem_cons.mp offered with rfl | offered
        · exact before l List.mem_cons_self
        · rcases List.mem_cons.mp offered with rfl | later
          · exact (before first List.mem_cons_self).trans (decided.mp kept)
          · exact before l (List.mem_cons_of_mem _ later)
      · have before := ih offer (ranked.subset (by simp))
        intro l offered
        rcases List.mem_cons.mp offered with rfl | offered
        · exact (before offer List.mem_cons_self).trans (le_of_not_ge (mt decided.mpr kept))
        · exact before l offered

theorem preferred_link_is_least {t : Topology α} {a b : String} {l : Link α}
    (ranked : Ranked t.links value) (found : t.preferredLink? a b = some l) :
    ∀ k ∈ t.links, k.first ≠ k.second → k.joins a b = true → l.rank value ≤ k.rank value := by
  intro k stored proper joins
  have offered := mem_links_between_iff.mpr ⟨stored, proper, joins⟩
  have among : t.linksBetween a b ⊆ t.links := List.filter_subset_self _
  unfold preferredLink? at found
  split at found
  · cases found
  · rename_i first rest offers
    cases found
    rw [offers] at offered among
    exact kept_link_is_least first rest (ranked.subset among) k offered

end Ranks

structure Preferred (t : Topology Rat) (a b : String) (l : Link Rat) : Prop where
  stored : l ∈ t.links
  proper : l.first ≠ l.second
  joins : l.joins a b = true
  least : ∀ k ∈ t.links, k.first ≠ k.second → k.joins a b = true → l.Precedes k

theorem exactly_ranked (links : List (Link Rat)) : Ranked links (id : Rat → Rat) where
  le _ _ _ _ := Iff.rfl
  beq _ _ _ _ := beq_iff_eq

theorem preferred_link_preferred {t : Topology Rat} {a b : String} {l : Link Rat}
    (found : t.preferredLink? a b = some l) : t.Preferred a b l := by
  obtain ⟨stored, proper, joins⟩ := preferred_link_between found
  refine ⟨stored, proper, joins, fun k stored' proper' joins' => ?_⟩
  rw [precedes_iff_rank]
  exact preferred_link_is_least (exactly_ranked t.links) found k stored' proper' joins'

theorem Preferred.unique {t : Topology Rat} (wellFormed : t.WellFormed) {a b : String}
    {l k : Link Rat} (left : t.Preferred a b l) (right : t.Preferred a b k) : l = k :=
  wellFormed.link_unique left.stored right.stored <|
    Link.precedes_antisymm_id (left.least k right.stored right.proper right.joins)
      (right.least l left.stored left.proper left.joins)

theorem preferred_link_iff {t : Topology Rat} (wellFormed : t.WellFormed) (a b : String)
    (l : Link Rat) : t.preferredLink? a b = some l ↔ t.Preferred a b l := by
  constructor
  · exact preferred_link_preferred
  · intro preferred
    obtain ⟨k, found⟩ := preferred_link_exists preferred.stored preferred.proper preferred.joins
    rw [found, (preferred_link_preferred found).unique wellFormed preferred]

end Topology
end EdgePlacement
