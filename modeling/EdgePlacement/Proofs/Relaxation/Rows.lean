import Mathlib.Algebra.BigOperators.Group.Finset.Basic
import Mathlib.Algebra.BigOperators.Fin
import Mathlib.Algebra.Field.Rat
import Mathlib.Tactic.Ring
import EdgePlacement.Relaxation.Program

/-!
# Rows over the flat vector of variables

A row starts as zeros and takes its coefficients one by one, each at the position of its variable.
As no two variables share a position, no coefficient is overwritten, and the value of the row at a
vector is the sum over its own variables.
-/

namespace EdgePlacement

set_option autoImplicit false

theorem Quantity.total_eq_sum (values : List Rat) : Quantity.total values = values.sum :=
  List.sum_eq_foldl.symm

namespace MatrixProgram

theorem form_value_nil_right (row : List Rat) : formValue row ([] : List Rat) = 0 := by
  cases row <;> rfl

theorem form_value_cons (c x : Rat) (row v : List Rat) :
    formValue (c :: row) (x :: v) = c * x + formValue row v := by
  unfold formValue
  rw [List.zipWith_cons_cons, Quantity.total_eq_sum, Quantity.total_eq_sum, List.sum_cons]

theorem form_value_zeros (count : Nat) (v : List Rat) :
    formValue (List.replicate count (0 : Rat)) v = 0 := by
  induction count generalizing v with
  | zero => rfl
  | succ count ih =>
      cases v with
      | nil => exact form_value_nil_right _
      | cons x v => rw [List.replicate_succ, form_value_cons, ih, zero_mul, zero_add]

theorem form_value_set (row v : List Rat) (position : Nat) (coefficient : Rat)
    (free : row[position]? = some 0) :
    formValue (row.set position coefficient) v =
      formValue row v + coefficient * v.getD position 0 := by
  induction row generalizing v position with
  | nil => cases free
  | cons c row ih =>
      cases v with
      | nil => simp [form_value_nil_right]
      | cons x v =>
          cases position with
          | zero =>
              obtain rfl : c = 0 := by simpa using free
              rw [List.set_cons_zero, form_value_cons, form_value_cons, List.getD_cons_zero]
              ring
          | succ position =>
              rw [List.set_cons_succ, form_value_cons, form_value_cons, List.getD_cons_succ,
                ih v position (by simpa using free), add_assoc]

theorem form_value_put_all {ι : Type} (position : ι → Nat) (coefficient : ι → Rat)
    (items : List ι) (row v : List Rat) (distinct : (items.map position).Nodup)
    (free : ∀ item ∈ items, row[position item]? = some 0) :
    formValue (items.foldl (fun row item => row.set (position item) (coefficient item)) row) v =
      formValue row v +
        (items.map fun item => coefficient item * v.getD (position item) 0).sum := by
  induction items generalizing row with
  | nil => simp
  | cons item rest ih =>
      obtain ⟨fresh, distinctRest⟩ := List.nodup_cons.mp distinct
      have freeRest : ∀ later ∈ rest,
          (row.set (position item) (coefficient item))[position later]? = some 0 := by
        intro later member
        have elsewhere : position item ≠ position later := by
          intro same
          apply fresh
          rw [same]
          exact List.mem_map_of_mem member
        rw [List.getElem?_set_ne elsewhere]
        exact free later (List.mem_cons_of_mem item member)
      rw [List.foldl_cons, ih _ distinctRest freeRest,
        form_value_set row v _ _ (free item List.mem_cons_self), List.map_cons, List.sum_cons,
        add_assoc]

end MatrixProgram

/-! ## Positions -/

namespace Relaxation

variable {α : Type}

theorem mem_shares_iff (r : Relaxation α) (share : Share) :
    share ∈ r.shares ↔ share.service < r.serviceCount ∧ share.node < r.nodeCount := by
  unfold shares serviceIndices nodeIndices
  simp only [List.mem_flatMap, List.mem_map, List.mem_range]
  constructor
  · rintro ⟨i, service, j, node, rfl⟩
    exact ⟨service, node⟩
  · rintro ⟨service, node⟩
    exact ⟨share.service, service, share.node, node, rfl⟩

theorem shares_positions (r : Relaxation α) :
    r.shares.map r.position = List.range (r.serviceCount * r.nodeCount) := by
  unfold shares serviceIndices
  induction r.serviceCount with
  | zero => simp
  | succ count ih =>
      have shift : (r.nodeIndices.map fun j => (⟨count, j⟩ : Share)).map r.position =
          r.nodeIndices.map (count * r.nodeCount + ·) := by
        rw [List.map_map]
        rfl
      rw [List.range_succ, List.flatMap_append, List.map_append, ih, List.flatMap_singleton, shift,
        Nat.succ_mul, List.range_add]
      rfl

theorem shares_length (r : Relaxation α) : r.shares.length = r.serviceCount * r.nodeCount := by
  have lengths := congrArg List.length r.shares_positions
  rwa [List.length_map, List.length_range] at lengths

theorem position_inside (r : Relaxation α) {share : Share} (member : share ∈ r.shares) :
    r.position share < r.shares.length := by
  have listed := List.mem_map_of_mem (f := r.position) member
  rwa [shares_positions, List.mem_range, ← shares_length] at listed

theorem position_injective (r : Relaxation α) {share other : Share} (member : share ∈ r.shares)
    (member' : other ∈ r.shares) (same : r.position share = r.position other) : share = other := by
  have distinct : (r.shares.map r.position).Nodup := by
    rw [shares_positions]
    exact List.nodup_range
  exact List.inj_on_of_nodup_map distinct member member' same

/-- The value of a row is the sum over its own variables. -/
theorem row_of_value {ι : Type} (r : Relaxation Rat) (items : List ι) (share : ι → Share)
    (coefficient : ι → Rat) (v : List Rat) (distinct : (items.map share).Nodup)
    (inside : ∀ item ∈ items, share item ∈ r.shares) :
    MatrixProgram.formValue (r.rowOf items share coefficient) v =
      (items.map fun item => coefficient item * v.getD (r.position (share item)) 0).sum := by
  have distinctPositions : (items.map fun item => r.position (share item)).Nodup := by
    rw [← Function.comp_def, ← List.map_map]
    apply List.Nodup.map_on _ distinct
    intro left memberLeft right memberRight same
    obtain ⟨item, member, rfl⟩ := List.mem_map.mp memberLeft
    obtain ⟨other, member', rfl⟩ := List.mem_map.mp memberRight
    exact r.position_injective (inside item member) (inside other member') same
  have free : ∀ item ∈ items, r.zeroRow[r.position (share item)]? = some 0 := by
    intro item member
    have bound := r.position_inside (inside item member)
    unfold zeroRow
    rw [List.getElem?_replicate, if_pos bound]
  unfold rowOf
  rw [MatrixProgram.form_value_put_all (fun item => r.position (share item)) coefficient items _ v
    distinctPositions free]
  unfold zeroRow
  rw [MatrixProgram.form_value_zeros, zero_add]

end Relaxation
end EdgePlacement
