import Mathlib.Order.Lattice
import Mathlib.Data.List.Basic

/-!
# Least items of sorted lists

Items are compared by a rank in a linear order. What a comparison says of ranks has to be true of
the items of the list only: sorting never compares any others.
-/

namespace EdgePlacement

set_option autoImplicit false

variable {β L : Type}

/-- An eligible item such that no eligible one has a lower rank. -/
structure LeastBy [LE L] (rank : β → L) (eligible : β → Prop) (item : β) : Prop where
  holds : eligible item
  least : ∀ other, eligible other → rank item ≤ rank other

variable [LinearOrder L] {rank : β → L}

theorem sorted_by_rank {precedes : β → β → Bool} {items : List β}
    (ranked : ∀ a ∈ items, ∀ b ∈ items, (precedes a b = true ↔ rank a < rank b)) :
    (items.mergeSort fun a b => !precedes b a).Pairwise fun a b => rank a ≤ rank b := by
  have agrees : ∀ a ∈ items, ∀ b ∈ items, (!precedes b a) = decide (rank a ≤ rank b) := by
    intro a listed b listed'
    rw [Bool.eq_iff_iff, Bool.not_eq_true', ← Bool.not_eq_true, ranked b listed' a listed, not_lt,
      decide_eq_true_iff]
  have same := List.map_mergeSort (r := fun a b => !precedes b a)
    (s := fun a b => decide (rank a ≤ rank b)) (f := id) agrees
  rw [List.map_id, List.map_id] at same
  rw [same]
  refine (List.pairwise_mergeSort ?_ ?_ items).imp fun ordered => decide_eq_true_iff.mp ordered
  · intro a b c below above
    rw [decide_eq_true_iff] at below above ⊢
    exact below.trans above
  · intro a b
    rw [Bool.or_eq_true, decide_eq_true_iff, decide_eq_true_iff]
    exact le_total (rank a) (rank b)

theorem least_of_found {items : List β} {test : β → Bool} {item : β}
    (sorted : items.Pairwise fun a b => rank a ≤ rank b) (found : items.find? test = some item) :
    LeastBy rank (fun other => other ∈ items ∧ test other = true) item := by
  obtain ⟨holds, before, after, rfl, passed⟩ := List.find?_eq_some_iff_append.mp found
  refine ⟨⟨by simp, holds⟩, ?_⟩
  rintro other ⟨listed, eligible⟩
  rcases List.mem_append.mp listed with earlier | later
  · have refused := passed other earlier
    rw [eligible] at refused
    cases refused
  · rcases List.mem_cons.mp later with rfl | behind
    · exact le_rfl
    · exact (List.pairwise_cons.mp (List.pairwise_append.mp sorted).2.1).1 other behind

end EdgePlacement
