import Mathlib.Algebra.Order.Field.Rat
import Mathlib.Tactic.Linarith
import EdgePlacement.Proofs.FailedPlans
import EdgePlacement.Proofs.Relaxation.Rows

/-!
# Picking by share

Weights with a mass make a distribution. The stretches that the alternatives take of the unit
interval lie one after the other and cover it, so that a number drawn from the interval lies in the
stretch of an alternative with a share: one of no share has no stretch to be met.
-/

namespace EdgePlacement

set_option autoImplicit false

variable {σ δ : Type}

/-! ## Distributions -/

theorem shares_are_distribution {weights : List Rat}
    (massive : 0 < Summation.total (weights.map Quantity.liftToZero)) :
    (∀ share ∈ sharesOf weights, 0 ≤ share) ∧ (sharesOf weights).sum = 1 := by
  constructor
  · intro share listed
    obtain ⟨lifted, member, rfl⟩ := List.mem_map.mp listed
    obtain ⟨weight, -, rfl⟩ := List.mem_map.mp member
    exact div_nonneg (not_lt.mp (Quantity.lift_not_below weight)) massive.le
  · unfold sharesOf
    dsimp only
    rw [Summation.total_exact, Quantity.total_eq_sum] at massive ⊢
    generalize weights.map Quantity.liftToZero = lifted at massive ⊢
    simp only [div_eq_mul_inv, List.sum_map_mul_right, List.map_id']
    exact mul_inv_cancel₀ massive.ne'

theorem Sampler.compensated_eq_sum (shares : List Rat) :
    Sampler.compensatedTotal shares = shares.sum := by
  have carried : ∀ (sum : Rat) (rest : List Rat),
      Sampler.compensatedFrom sum 0 rest = sum + rest.sum := by
    intro sum rest
    induction rest generalizing sum with
    | nil => exact (add_zero sum).symm
    | cons share rest ih =>
        have settled : sum + (share - 0) - sum - (share - 0) = 0 := by ring
        unfold Sampler.compensatedFrom
        dsimp only
        rw [settled, ih, List.sum_cons, sub_zero, add_assoc]
  cases shares with
  | nil => rfl
  | cons share rest => exact carried share rest

theorem share_test_of_distribution {shares : List Rat} (notBelow : ∀ share ∈ shares, 0 ≤ share)
    (whole : shares.sum = 1) : Sampler.shareTest shares.length shares = true := by
  have none : (shares.any fun share => decide (share < 0)) = false := by
    rw [List.any_eq_false]
    intro share listed
    simpa using notBelow share listed
  have near : Quantity.magnitude ((1 : Rat) - 1) ≤ 1.4901161193847656e-08 := by decide +kernel
  simp only [Sampler.shareTest, none, Sampler.compensated_eq_sum, whole, near]
  simp

namespace Sampler

/-- What is asked of a sampler: it takes every distribution, and whatever is drawn, it picks an
alternative that has a share. -/
structure Lawful (sampler : Sampler Rat σ δ) : Prop where
  admits : ∀ shares : List Rat, (∀ share ∈ shares, 0 ≤ share) → shares.sum = 1 →
    sampler.admits shares.length shares = true
  picks : ∀ shares : List Rat, (∀ share ∈ shares, 0 ≤ share) → shares.sum = 1 → ∀ g,
    ∃ share, shares[sampler.pick shares (sampler.draw g).1]? = some share ∧ 0 < share

/-! ## Stretches -/

theorem running_sums_above {shares : List Rat} (notBelow : ∀ share ∈ shares, 0 ≤ share)
    (start : Rat) : ∀ bound ∈ runningSums start shares, start ≤ bound := by
  induction shares generalizing start with
  | nil => nofun
  | cons share rest ih =>
      obtain ⟨first, later⟩ := List.forall_mem_cons.mp notBelow
      have raised : start ≤ start + share := le_add_of_nonneg_right first
      intro bound member
      rcases List.mem_cons.mp member with rfl | further
      · exact raised
      · exact raised.trans (ih later (start + share) bound further)

theorem running_sums_last {shares : List Rat} (nonempty : shares ≠ []) (start : Rat) :
    (runningSums start shares).getLast? = some (start + shares.sum) := by
  induction shares generalizing start with
  | nil => exact absurd rfl nonempty
  | cons share rest ih =>
      rw [List.sum_cons, ← add_assoc]
      cases rest with
      | nil => simp [runningSums]
      | cons next rest =>
          have last := ih nofun (start + share)
          rw [← last]
          rfl

/-- The bounds that are not above a number are those of the alternatives that come before the one
in whose stretch it lies. -/
theorem passed_sums_have_share {shares : List Rat} (notBelow : ∀ share ∈ shares, 0 ≤ share)
    {start drawn : Rat} (above : start ≤ drawn) (below : drawn < start + shares.sum) :
    ∃ share, shares[((runningSums start shares).filter fun bound =>
      decide (bound ≤ drawn)).length]? = some share ∧ 0 < share := by
  induction shares generalizing start with
  | nil =>
      rw [List.sum_nil, add_zero] at below
      exact absurd below (not_lt.mpr above)
  | cons share rest ih =>
      obtain ⟨-, later⟩ := List.forall_mem_cons.mp notBelow
      rw [List.sum_cons, ← add_assoc] at below
      unfold runningSums
      by_cases passed : start + share ≤ drawn
      · rw [List.filter_cons_of_pos (by simpa using passed), List.length_cons,
          List.getElem?_cons_succ]
        exact ih later passed below
      · have none : (runningSums (start + share) rest).filter
            (fun bound => decide (bound ≤ drawn)) = [] := by
          rw [List.filter_eq_nil_iff]
          intro bound member within
          have higher := running_sums_above later (start + share) bound member
          exact passed (higher.trans (of_decide_eq_true within))
        rw [List.filter_cons_of_neg (by simpa using passed), none]
        exact ⟨share, rfl, by linarith⟩

/-- A number from the unit interval lies in the stretch of an alternative with a share. -/
theorem stretch_has_share {shares : List Rat} (notBelow : ∀ share ∈ shares, 0 ≤ share)
    (massive : 0 < shares.sum) {drawn : Rat} (above : 0 ≤ drawn) (below : drawn < 1) :
    ∃ share, shares[stretchOf shares drawn]? = some share ∧ 0 < share := by
  have nonempty : shares ≠ [] := by
    rintro rfl
    exact lt_irrefl 0 massive
  have scaled : bounds shares = (runningSums 0 shares).map (· / shares.sum) := by
    unfold bounds
    dsimp only
    rw [running_sums_last nonempty, zero_add]
  have passed : stretchOf shares drawn = ((runningSums 0 shares).filter fun bound =>
      decide (bound ≤ drawn * shares.sum)).length := by
    unfold stretchOf
    rw [scaled, List.filter_map, List.length_map]
    simp only [Function.comp_def, div_le_iff₀ massive]
  rw [passed]
  apply passed_sums_have_share notBelow
  · exact mul_nonneg above massive.le
  · rw [zero_add]
    exact mul_lt_of_lt_one_left massive below

def ofEighths : Sampler Rat (Fin 8) Rat where
  ofSeed? seed := if seed < 0 then none else some (Fin.ofNat 8 seed.toNat)
  draw g := ((g.val : Rat) / 8, 5 * g + 3)
  admits := shareTest
  pick := stretchOf

theorem of_eighths_lawful : ofEighths.Lawful where
  admits _ := share_test_of_distribution
  picks shares notBelow whole g := by
    have above : (0 : Rat) ≤ (g.val : Rat) / 8 := div_nonneg (Nat.cast_nonneg _) (by decide)
    have below : (g.val : Rat) / 8 < 1 := by
      rw [div_lt_one (by decide)]
      exact_mod_cast g.isLt
    exact stretch_has_share notBelow (whole ▸ one_pos) above below

end Sampler
end EdgePlacement
