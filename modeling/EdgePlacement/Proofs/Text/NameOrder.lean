import Mathlib.Data.List.Nodup
import Mathlib.Data.String.Basic
import EdgePlacement.Text.NameOrder

/-!
# The order of names is the order of strings
-/

namespace EdgePlacement.Text

set_option autoImplicit false

theorem codes_precede_iff (left right : List Char) :
    codesPrecede left right = true ↔ left < right := by
  induction left generalizing right with
  | nil =>
      cases right with
      | nil => simp [codesPrecede]
      | cons => simp [codesPrecede]
  | cons first rest ih =>
      cases right with
      | nil => simp [codesPrecede]
      | cons first' rest' =>
          rw [codesPrecede, List.cons_lt_cons_iff]
          split_ifs with same
          · have sameChar : first = first' := Char.toNat_inj.mp same
            subst sameChar
            rw [ih]
            simp
          · have differs : first ≠ first' := fun equal => same (congrArg Char.toNat equal)
            have codes : first.toNat < first'.toNat ↔ first < first' := Iff.rfl
            simp [differs, codes]

theorem name_precedes_iff (a b : String) : namePrecedes a b = true ↔ a < b :=
  codes_precede_iff a.toList b.toList

theorem mem_sort_names_iff (names : List String) (name : String) :
    name ∈ sortNames names ↔ name ∈ names := by
  unfold sortNames
  exact List.mem_mergeSort

theorem sort_names_nodup {names : List String} (distinct : names.Nodup) :
    (sortNames names).Nodup :=
  (List.mergeSort_perm names _).nodup_iff.mpr distinct

theorem sort_names_ascending {names : List String} (distinct : names.Nodup) :
    (sortNames names).Pairwise (· < ·) := by
  have order : ∀ a b : String, (!namePrecedes b a) = true ↔ a ≤ b := by
    intro a b
    rw [Bool.not_eq_true', ← Bool.not_eq_true, name_precedes_iff, not_lt]
  have sorted : (sortNames names).Pairwise fun a b => (!namePrecedes b a) = true := by
    apply List.pairwise_mergeSort
    · intro a b c below above
      exact (order a c).mpr (((order a b).mp below).trans ((order b c).mp above))
    · intro a b
      rw [Bool.or_eq_true, order, order]
      exact le_total a b
  refine (sorted.and (sort_names_nodup distinct)).imp ?_
  rintro a b ⟨below, differs⟩
  exact lt_of_le_of_ne ((order a b).mp below) differs

end EdgePlacement.Text
