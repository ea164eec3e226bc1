import Mathlib.Data.List.Lex
import Mathlib.Data.Prod.Lex
import EdgePlacement.Proofs.FailedPlans
import EdgePlacement.Proofs.Ranks
import EdgePlacement.Proofs.Text.NameOrder

/-!
# The order of candidates

Whatever is drawn, the candidates for a service are the nodes in another order. Each stretch of that
order is sorted by a rank: the load, the weight or the capacity of a node and then its name. The
comparisons of the program agree with the order of ranks on numbers, and on nothing else.
-/

namespace EdgePlacement

set_option autoImplicit false

section AnyQuantity

variable {α σ δ : Type} [Quantity α]

namespace Weighted

/-- Each node with its weight. -/
def listed (weights : List α) (nodes : List (Node α)) : List (Weighted α) :=
  List.zipWith Weighted.mk weights nodes

/-- The nodes of positive weight but for the sampled one, in the order in which they are listed. -/
def unsampled (weights : List α) (nodes : List (Node α)) (sampled : Nat) : List (Weighted α) :=
  (weights.zip nodes).zipIdx.filterMap fun ((weight, node), j) =>
    if j ≠ sampled && decide (0 < weight) then some (⟨weight, node⟩ : Weighted α) else none

theorem others_eq (weights : List α) (nodes : List (Node α)) (sampled : Nat) :
    others weights nodes sampled =
      ((unsampled weights nodes sampled).mergeSort fun a b => !precedes b a).map (·.node) :=
  rfl

omit [Quantity α] in
theorem listed_at_iff {weights : List α} {nodes : List (Node α)} {position : Nat}
    {entry : Weighted α} :
    (listed weights nodes)[position]? = some entry ↔
      weights[position]? = some entry.weight ∧ nodes[position]? = some entry.node := by
  unfold listed
  rw [List.getElem?_zipWith_eq_some]
  constructor
  · rintro ⟨weight, node, weighs, stands, rfl⟩
    exact ⟨weighs, stands⟩
  · rintro ⟨weighs, stands⟩
    exact ⟨entry.weight, entry.node, weighs, stands, rfl⟩

omit [Quantity α] in
theorem listed_of_node {weights : List α} {nodes : List (Node α)}
    (width : weights.length = nodes.length) {n : Node α} (member : n ∈ nodes) :
    ∃ entry ∈ listed weights nodes, entry.node = n := by
  obtain ⟨position, stands⟩ := List.mem_iff_getElem?.mp member
  obtain ⟨within, -⟩ := List.getElem?_eq_some_iff.mp stands
  have weighs : weights[position]? = some weights[position] := List.getElem?_eq_getElem _
  exact ⟨⟨weights[position], n⟩,
    List.mem_iff_getElem?.mpr ⟨position, listed_at_iff.mpr ⟨weighs, stands⟩⟩, rfl⟩

omit [Quantity α] in
theorem node_of_listed {weights : List α} {nodes : List (Node α)} {entry : Weighted α}
    (member : entry ∈ listed weights nodes) : entry.node ∈ nodes := by
  obtain ⟨position, standing⟩ := List.mem_iff_getElem?.mp member
  exact List.mem_of_getElem? (listed_at_iff.mp standing).2

theorem mem_unsampled_iff {weights : List α} {nodes : List (Node α)} {sampled : Nat}
    {entry : Weighted α} :
    entry ∈ unsampled weights nodes sampled ↔ 0 < entry.weight ∧
      ∃ position ≠ sampled, (listed weights nodes)[position]? = some entry := by
  unfold unsampled
  simp only [List.mem_filterMap, List.mem_zipIdx_iff_getElem?, List.getElem?_zip_eq_some,
    listed_at_iff]
  constructor
  · rintro ⟨⟨⟨weight, node⟩, position⟩, ⟨weighs, stands⟩, kept⟩
    split_ifs at kept with chosen
    cases kept
    obtain ⟨other, positive⟩ := Bool.and_eq_true_iff.mp chosen
    exact ⟨of_decide_eq_true positive, position, of_decide_eq_true other, weighs, stands⟩
  · rintro ⟨positive, position, other, weighs, stands⟩
    refine ⟨((entry.weight, entry.node), position), ⟨weighs, stands⟩, ?_⟩
    exact if_pos (Bool.and_eq_true_iff.mpr ⟨decide_eq_true other, decide_eq_true positive⟩)

end Weighted

omit [Quantity α] in
theorem filter_map_sublist {β γ : Type} {f : β → Option γ} {g : β → γ}
    (kept : ∀ item result, f item = some result → result = g item) (items : List β) :
    (items.filterMap f).Sublist (items.map g) := by
  induction items with
  | nil => exact List.Sublist.refl _
  | cons item rest ih =>
      cases found : f item with
      | none =>
          rw [List.filterMap_cons_none found]
          exact ih.cons (g item)
      | some result =>
          rw [List.filterMap_cons_some found, kept item result found]
          exact ih.cons_cons (g item)

theorem Weighted.others_once {weights : List α} {nodes : List (Node α)} (sampled : Nat)
    (width : weights.length = nodes.length) (once : nodes.Nodup) :
    (Weighted.others weights nodes sampled).Nodup := by
  have inOrder : ((Weighted.unsampled weights nodes sampled).map (·.node)).Sublist nodes := by
    unfold Weighted.unsampled
    rw [List.map_filterMap]
    have sublist := filter_map_sublist
      (f := fun item : (α × Node α) × Nat => Option.map (·.node)
        (if item.2 ≠ sampled && decide (0 < item.1.1) then
          some (⟨item.1.1, item.1.2⟩ : Weighted α) else none))
      (g := fun item => item.1.2) ?_ (weights.zip nodes).zipIdx
    · have same : (weights.zip nodes).zipIdx.map (fun item => item.1.2) = nodes := by
        have firsts := congrArg (List.map Prod.snd) (List.zipIdx_map_fst 0 (weights.zip nodes))
        rwa [List.map_map, List.map_snd_zip width.ge] at firsts
      rwa [same] at sublist
    · rintro ⟨⟨weight, node⟩, position⟩ result found
      dsimp only at found
      split_ifs at found
      · cases found
        rfl
      · cases found
  rw [Weighted.others_eq]
  exact ((List.mergeSort_perm _ _).map _).nodup_iff.mpr (inOrder.nodup once)

/-! ## Permutations -/

theorem complete_order_perm {first nodes : List (Node α)}
    (distinct : (nodes.map (·.name)).Nodup) (listed : ∀ m ∈ first, m ∈ nodes)
    (once : first.Nodup) : (completeOrder first nodes).Perm nodes := by
  have unique : ∀ m ∈ nodes, ∀ n ∈ nodes, m.name = n.name → m = n :=
    fun _ member _ member' named => List.inj_on_of_nodup_map distinct member member' named
  have sorted : (Node.byCapacity nodes).Nodup :=
    (List.mergeSort_perm nodes _).nodup_iff.mpr distinct.of_map
  have apart : (completeOrder first nodes).Nodup := by
    refine List.nodup_append.mpr ⟨once, sorted.filter _, ?_⟩
    rintro n early m late rfl
    have seen : n.name ∈ first.map (·.name) := List.mem_map_of_mem early
    have unseen := (List.mem_filter.mp late).2
    rw [List.contains_iff_mem.mpr seen] at unseen
    cases unseen
  refine (List.perm_ext_iff_of_nodup apart distinct.of_map).mpr fun n => ?_
  exact ⟨complete_order_in_nodes first nodes listed n,
    fun member => complete_order_covers first nodes listed unique member⟩

/-- All nodes in the order of their load leave none for the order of their capacity. -/
theorem complete_order_by_load (nodes : List (Node α)) :
    completeOrder (Node.byLoad nodes) nodes = Node.byLoad nodes := by
  have none : (Node.byCapacity nodes).filter
      (fun n => !((Node.byLoad nodes).map (·.name)).contains n.name) = [] := by
    rw [List.filter_eq_nil_iff]
    intro n member unseen
    rw [mem_by_capacity_iff, ← mem_by_load_iff] at member
    have seen : n.name ∈ (Node.byLoad nodes).map (·.name) := List.mem_map_of_mem member
    rw [List.contains_iff_mem.mpr seen] at unseen
    cases unseen
  unfold completeOrder
  dsimp only
  rw [none, List.append_nil]

section Order

variable [Summation α]

/-- The weights have no mass beyond the tolerance. Weights below zero count as zero. -/
def Massless (tolerance : α) (weights : List α) : Prop :=
  Summation.total (weights.map Quantity.liftToZero) ≤ tolerance

instance (tolerance : α) (weights : List α) : Decidable (Massless tolerance weights) :=
  Quantity.decidableLE _ tolerance

/-- The position that the next draw picks. -/
def Sampler.sampled (sampler : Sampler α σ δ) (weights : List α) (g : σ) : Nat :=
  sampler.pick (sharesOf weights) (sampler.draw g).1

variable {sampler : Sampler α σ δ} {weights : List α} {nodes : List (Node α)} {tolerance : α}

theorem massless_order (massless : Massless tolerance weights) (g : σ) :
    candidateOrder sampler weights nodes tolerance g = (.ok (Node.byLoad nodes), g) := by
  unfold Massless at massless
  unfold candidateOrder
  dsimp only
  rw [if_pos massless, complete_order_by_load]

theorem massive_order (massive : ¬ Massless tolerance weights)
    (admitted : sampler.admits nodes.length (sharesOf weights) = true) (g : σ) :
    candidateOrder sampler weights nodes tolerance g =
      (.ok (completeOrder (nodes[sampler.sampled weights g]?.toList ++
        Weighted.others (weights.map Quantity.liftToZero) nodes (sampler.sampled weights g)) nodes),
        (sampler.draw g).2) := by
  unfold Massless at massive
  unfold sharesOf at admitted
  dsimp only at admitted
  unfold candidateOrder
  dsimp only
  rw [if_neg massive, if_pos admitted]
  rfl

theorem refused_order (massive : ¬ Massless tolerance weights)
    (refused : sampler.admits nodes.length (sharesOf weights) = false) (g : σ) :
    candidateOrder sampler weights nodes tolerance g = (.error .refusedWeights, g) := by
  unfold Massless at massive
  unfold sharesOf at refused
  dsimp only at refused
  unfold candidateOrder
  dsimp only
  rw [if_neg massive, refused]
  rfl

omit [Summation α] in
theorem first_choices_once (sampled : Nat) (width : weights.length = nodes.length)
    (once : nodes.Nodup) :
    (nodes[sampled]?.toList ++ Weighted.others weights nodes sampled).Nodup := by
  refine List.nodup_append.mpr ⟨?_, Weighted.others_once sampled width once, ?_⟩
  · cases nodes[sampled]? <;> simp
  · rintro n drawn m other rfl
    have stands : nodes[sampled]? = some n := Option.mem_toList.mp drawn
    rw [Weighted.others_eq, List.mem_map] at other
    obtain ⟨entry, sorted, same⟩ := other
    obtain ⟨-, position, apart, standing⟩ :=
      Weighted.mem_unsampled_iff.mp (List.mem_mergeSort.mp sorted)
    have stands' := (Weighted.listed_at_iff.mp standing).2
    obtain ⟨within, -⟩ := List.getElem?_eq_some_iff.mp stands'
    exact apart ((List.getElem?_inj within once).mp (by rw [stands', stands, same]))

/-- No node is left out, and none is tried twice. -/
theorem candidates_permute_nodes {order : List (Node α)} {g g' : σ}
    (ordered : candidateOrder sampler weights nodes tolerance g = (.ok order, g'))
    (width : weights.length = nodes.length) (distinct : (nodes.map (·.name)).Nodup) :
    order.Perm nodes := by
  by_cases massless : Massless tolerance weights
  · rw [massless_order massless] at ordered
    cases ordered
    exact List.mergeSort_perm _ _
  · cases admitted : sampler.admits nodes.length (sharesOf weights) with
    | false =>
        rw [refused_order massless admitted] at ordered
        cases ordered
    | true =>
        rw [massive_order massless admitted] at ordered
        cases ordered
        apply complete_order_perm distinct
        · intro m early
          rcases List.mem_append.mp early with drawn | other
          · exact List.mem_of_getElem? (Option.mem_toList.mp drawn)
          · exact others_are_nodes _ nodes _ m other
        · exact first_choices_once _ ((List.length_map _).trans width) distinct.of_map

end Order
end AnyQuantity

/-! ## Ranks -/

open Binary64

noncomputable def Node.loadRank (n : Node Float) : EReal ×ₗ String :=
  toLex (value n.load, n.name)

noncomputable def Node.capacityRank (n : Node Float) : (List EReal)ᵒᵈ ×ₗ String :=
  toLex (OrderDual.toDual (n.capacity.values.map value), n.name)

noncomputable def Weighted.rank (entry : Weighted Float) : ERealᵒᵈ ×ₗ String :=
  toLex (OrderDual.toDual (value entry.weight), entry.node.name)

theorem precedes_or_iff {a b : Float} (number : IsNumber a) (number' : IsNumber b) (next : Bool) :
    Quantity.precedesOr a b next = true ↔
      value a < value b ∨ value a = value b ∧ next = true := by
  have equal : (a == b) = true ↔ value a = value b := beq_iff number number'
  have less : a < b ↔ value a < value b := by simp only [lt_iff, number, number', true_and]
  unfold Quantity.precedesOr
  split_ifs with same
  · have values := equal.mp same
    simp [values]
  · have differ : value a ≠ value b := fun values => same (equal.mpr values)
    rw [decide_eq_true_iff]
    simp [less, differ]

theorem load_precedes_iff {a b : Node Float} (number : IsNumber a.load)
    (number' : IsNumber b.load) : a.loadPrecedes b = true ↔ a.loadRank < b.loadRank := by
  unfold Node.loadPrecedes Node.loadRank
  rw [precedes_or_iff number number', Text.name_precedes_iff, Prod.Lex.toLex_lt_toLex]

theorem weight_precedes_iff {a b : Weighted Float} (number : IsNumber a.weight)
    (number' : IsNumber b.weight) : a.precedes b = true ↔ a.rank < b.rank := by
  unfold Weighted.precedes Weighted.rank
  rw [precedes_or_iff number' number, Text.name_precedes_iff, Prod.Lex.toLex_lt_toLex,
    OrderDual.toDual_lt_toDual, OrderDual.toDual_inj, eq_comm]

/-- Compared dimension by dimension, values precede others when they come before them as a list. -/
theorem values_precede_iff {r s : Resources Float} (numbers : ∀ d, IsNumber (r.get d))
    (numbers' : ∀ d, IsNumber (s.get d)) (dimensions : List Dimension) (next : Bool) :
    dimensions.foldr (fun d next => Quantity.precedesOr (r.get d) (s.get d) next) next = true ↔
      dimensions.map (fun d => value (r.get d)) < dimensions.map (fun d => value (s.get d)) ∨
        dimensions.map (fun d => value (r.get d)) = dimensions.map (fun d => value (s.get d)) ∧
          next = true := by
  induction dimensions with
  | nil => simp
  | cons d rest ih =>
      rw [List.foldr_cons, precedes_or_iff (numbers d) (numbers' d), ih, List.map_cons,
        List.map_cons, List.cons_lt_cons_iff, List.cons.injEq]
      tauto

theorem capacity_precedes_iff {a b : Node Float} (numbers : ∀ d, IsNumber (a.capacity.get d))
    (numbers' : ∀ d, IsNumber (b.capacity.get d)) :
    a.capacityPrecedes b = true ↔ a.capacityRank < b.capacityRank := by
  have listed : ∀ r : Resources Float,
      Dimension.all.map (fun d => value (r.get d)) = r.values.map value := fun r => rfl
  unfold Node.capacityPrecedes Node.capacityRank
  rw [values_precede_iff numbers' numbers, listed, listed, Text.name_precedes_iff,
    Prod.Lex.toLex_lt_toLex, OrderDual.toDual_lt_toDual, OrderDual.toDual_inj, eq_comm]

/-! ## Sorted stretches -/

theorem by_load_sorted {nodes : List (Node Float)} (numbers : ∀ n ∈ nodes, IsNumber n.load) :
    (Node.byLoad nodes).Pairwise fun a b => a.loadRank ≤ b.loadRank :=
  sorted_by_rank fun a member b member' => load_precedes_iff (numbers a member) (numbers b member')

theorem by_capacity_sorted {nodes : List (Node Float)}
    (numbers : ∀ n ∈ nodes, ∀ d, IsNumber (n.capacity.get d)) :
    (Node.byCapacity nodes).Pairwise fun a b => a.capacityRank ≤ b.capacityRank :=
  sorted_by_rank fun a member b member' =>
    capacity_precedes_iff (numbers a member) (numbers b member')

/-- Positive weights are numbers. -/
theorem unsampled_sorted (weights : List Float) (nodes : List (Node Float)) (sampled : Nat) :
    ((Weighted.unsampled weights nodes sampled).mergeSort fun a b => !b.precedes a).Pairwise
      fun a b => a.rank ≤ b.rank := by
  have numbers : ∀ entry ∈ Weighted.unsampled weights nodes sampled, IsNumber entry.weight := by
    intro entry member
    exact ((lt_iff 0 entry.weight).mp (Weighted.mem_unsampled_iff.mp member).1).2.1
  exact sorted_by_rank fun a member b member' =>
    weight_precedes_iff (numbers a member) (numbers b member')

end EdgePlacement
