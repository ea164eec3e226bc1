import Mathlib.Algebra.BigOperators.Group.Finset.Basic
import Mathlib.Algebra.BigOperators.Ring.Finset
import Mathlib.Algebra.Order.BigOperators.Group.Finset
import Mathlib.Algebra.Order.Field.Rat
import Mathlib.Data.List.GetD
import Mathlib.Tactic.FieldSimp
import Mathlib.Tactic.Linarith
import Mathlib.Tactic.Ring
import EdgePlacement.Relaxation.LinearSystem
import EdgePlacement.Quantity

/-!
# What the simplex method answers

A pivot replaces the rows of a tableau by combinations of them that the same points solve, and keeps
the point that is read off the tableau from going below zero. A system whose shortfall is pivoted
away is therefore satisfied by that point. Where some shortfall is left over and no column lowers it
any more, the rows that lack something add up to an equation that no point solves.
-/

namespace EdgePlacement

set_option autoImplicit false

/-! ## Points -/

def LinearForm.value (form : LinearForm) (unknowns : Nat) (x : Nat → Rat) : Rat :=
  ∑ k ∈ Finset.range unknowns, form.coefficients.getD k 0 * x k

namespace LinearSystem

structure Satisfies (s : LinearSystem) (x : Nat → Rat) : Prop where
  nonneg : ∀ k < s.unknowns, 0 ≤ x k
  equal : ∀ form ∈ s.equal, form.value s.unknowns x = form.bound
  atMost : ∀ form ∈ s.atMost, form.value s.unknowns x ≤ form.bound

def Row.value (row : Row) (columns : Nat) (x : Nat → Rat) : Rat :=
  ∑ column ∈ Finset.range columns, row.entry column * x column

def Solves (columns : Nat) (rows : List Row) (x : Nat → Rat) : Prop :=
  ∀ row ∈ rows, row.value columns x = row.bound

/-- Where every basic column has a single entry, the bounds are a point of the rows that have no
shortfall. -/
structure Tableau (columns : Nat) (rows : List Row) : Prop where
  sized : ∀ row ∈ rows, row.coefficients.size = columns
  nonneg : ∀ row ∈ rows, 0 ≤ row.bound
  basics : ∀ (i j : Nat) (row other : Row), rows[i]? = some row → rows[j]? = some other →
    ∀ column, row.basic = some column →
      column < columns ∧ other.entry column = if i = j then 1 else 0

namespace Row

theorem entry_scale (row : Row) (factor : Rat) (column : Nat) :
    (row.scale factor).entry column = row.entry column * factor := by
  unfold entry scale
  rcases Nat.lt_or_ge column row.coefficients.size with inside | outside
  · simp [Array.getD_eq_getD_getElem?, inside]
  · simp [Array.getD_eq_getD_getElem?, outside]

theorem entry_reduce (row pivot : Row) (factor : Rat) {column : Nat}
    (inside : column < row.coefficients.size) :
    (row.reduce pivot factor).entry column = row.entry column - factor * pivot.entry column := by
  unfold reduce
  split_ifs with none
  · rw [none, zero_mul, sub_zero]
  · simp [entry, Array.getD_eq_getD_getElem?, inside]

theorem bound_reduce (row pivot : Row) (factor : Rat) :
    (row.reduce pivot factor).bound = row.bound - factor * pivot.bound := by
  unfold reduce
  split_ifs with none
  · rw [none, zero_mul, sub_zero]
  · rfl

theorem basic_reduce (row pivot : Row) (factor : Rat) :
    (row.reduce pivot factor).basic = row.basic := by
  unfold reduce
  split_ifs <;> rfl

theorem size_reduce (row pivot : Row) (factor : Rat) :
    (row.reduce pivot factor).coefficients.size = row.coefficients.size := by
  unfold reduce
  split_ifs
  · rfl
  · simp

theorem size_scale (row : Row) (factor : Rat) :
    (row.scale factor).coefficients.size = row.coefficients.size := by
  simp [scale]

theorem value_scale (row : Row) (factor : Rat) (columns : Nat) (x : Nat → Rat) :
    (row.scale factor).value columns x = row.value columns x * factor := by
  unfold value
  rw [Finset.sum_mul]
  apply Finset.sum_congr rfl
  intro column _
  rw [entry_scale]
  ring

theorem value_reduce (row pivot : Row) (factor : Rat) {columns : Nat} (x : Nat → Rat)
    (sized : row.coefficients.size = columns) :
    (row.reduce pivot factor).value columns x =
      row.value columns x - factor * pivot.value columns x := by
  unfold value
  rw [Finset.mul_sum, ← Finset.sum_sub_distrib]
  apply Finset.sum_congr rfl
  intro column inside
  rw [entry_reduce row pivot factor (sized ▸ Finset.mem_range.mp inside)]
  ring

end Row

/-! ## The leaving row -/

structure Leaves (rows : List Row) (column place : Nat) (leaving : Row) : Prop where
  listed : rows[place]? = some leaving
  positive : 0 < leaving.entry column
  first : ∀ row ∈ rows, 0 < row.entry column →
    leaving.bound * row.entry column ≤ row.bound * leaving.entry column

/-- One step of the search among numbered rows. -/
def betterRow (column : Nat) (best : Option (Nat × Row)) (candidate : Row × Nat) :
    Option (Nat × Row) :=
  if 0 < candidate.1.entry column then
    match best with
    | none => some (candidate.2, candidate.1)
    | some (_, leader) =>
      let mine := candidate.1.bound * leader.entry column
      let theirs := leader.bound * candidate.1.entry column
      if mine < theirs || (mine = theirs && leavesBefore candidate.1 leader) then
        some (candidate.2, candidate.1)
      else best
  else best

inductive Best (column : Nat) (seen : List (Row × Nat)) : Option (Nat × Row) → Prop where
  | none (bounded : ∀ candidate ∈ seen, ¬ 0 < candidate.1.entry column) : Best column seen none
  | some {place : Nat} {leaving : Row} (listed : (leaving, place) ∈ seen)
      (positive : 0 < leaving.entry column)
      (first : ∀ candidate ∈ seen, 0 < candidate.1.entry column →
        leaving.bound * candidate.1.entry column ≤ candidate.1.bound * leaving.entry column) :
      Best column seen (some (place, leaving))

theorem best_step {column : Nat} {seen : List (Row × Nat)} {best : Option (Nat × Row)}
    (known : Best column seen best) (candidate : Row × Nat) :
    Best column (seen ++ [candidate]) (betterRow column best candidate) := by
  have extended : ∀ {holds : Row × Nat → Prop}, (∀ c ∈ seen, holds c) → holds candidate →
      ∀ c ∈ seen ++ [candidate], holds c := by
    intro holds before last c member
    rcases List.mem_append.mp member with earlier | new
    · exact before c earlier
    · exact List.mem_singleton.mp new ▸ last
  have last : candidate ∈ seen ++ [candidate] := by simp
  unfold betterRow
  by_cases positive : 0 < candidate.1.entry column
  · rw [if_pos positive]
    cases known with
    | none bounded =>
        refine .some last positive (extended (fun c member above => ?_) fun _ => le_rfl)
        exact absurd above (bounded c member)
    | @some place leader listed leaderPositive first =>
        dsimp only
        split_ifs with better
        · have ahead : candidate.1.bound * leader.entry column ≤
              leader.bound * candidate.1.entry column := by
            simp only [Bool.or_eq_true, decide_eq_true_eq, Bool.and_eq_true] at better
            exact better.elim le_of_lt fun tied => tied.1.le
          refine .some last positive (extended (fun c member above => ?_) fun _ => le_rfl)
          have within := first c member above
          -- The three ratios are compared after multiplying with the entry of the former leader.
          refine le_of_mul_le_mul_right ?_ leaderPositive
          nlinarith
        · have behind : leader.bound * candidate.1.entry column ≤
              candidate.1.bound * leader.entry column := by
            simp only [Bool.or_eq_true, decide_eq_true_eq, not_or, not_lt] at better
            exact better.1
          exact .some (List.mem_append_left _ listed) leaderPositive
            (extended first fun _ => behind)
  · rw [if_neg positive]
    cases known with
    | none bounded => exact .none (extended bounded positive)
    | some listed leaderPositive first =>
        exact .some (List.mem_append_left _ listed) leaderPositive
          (extended first fun above => absurd above positive)

theorem leaving_row_best (rows : List Row) (column : Nat) :
    Best column rows.zipIdx (leavingRow? rows column) := by
  have folded : ∀ seen : List (Row × Nat),
      Best column seen (seen.foldl (betterRow column) none) := by
    intro seen
    induction seen using List.reverseRecOn with
    | nil => exact .none nofun
    | append_singleton seen candidate ih =>
        rw [List.foldl_append]
        exact best_step ih candidate
  exact folded rows.zipIdx

theorem numbered_row {rows : List Row} {row : Row} (member : row ∈ rows) :
    ∃ i, rows[i]? = some row ∧ (row, i) ∈ rows.zipIdx := by
  obtain ⟨i, inside, rfl⟩ := List.getElem_of_mem member
  have listed := List.getElem?_eq_getElem inside
  exact ⟨i, listed, List.mem_zipIdx_iff_getElem?.mpr listed⟩

theorem leaving_row_leaves {rows : List Row} {column place : Nat} {leaving : Row}
    (found : leavingRow? rows column = some (place, leaving)) :
    Leaves rows column place leaving := by
  have best := leaving_row_best rows column
  rw [found] at best
  cases best with
  | some listed positive first =>
      refine ⟨List.mem_zipIdx_iff_getElem?.mp listed, positive, fun row member above => ?_⟩
      obtain ⟨i, -, numbered⟩ := numbered_row member
      exact first (row, i) numbered above

theorem no_leaving_row {rows : List Row} {column : Nat} (none : leavingRow? rows column = none) :
    ∀ row ∈ rows, row.entry column ≤ 0 := by
  have best := leaving_row_best rows column
  rw [none] at best
  cases best with
  | none bounded =>
      intro row member
      obtain ⟨i, -, numbered⟩ := numbered_row member
      exact not_lt.mp (bounded (row, i) numbered)

/-! ## One pivot -/

def unitRow (leaving : Row) (column : Nat) : Row :=
  { leaving.scale (1 / leaving.entry column) with basic := some column }

theorem unit_entry (leaving : Row) (column other : Nat) :
    (unitRow leaving column).entry other = leaving.entry other * (1 / leaving.entry column) :=
  leaving.entry_scale _ other

theorem unit_bound (leaving : Row) (column : Nat) :
    (unitRow leaving column).bound = leaving.bound * (1 / leaving.entry column) := rfl

theorem unit_value (leaving : Row) (column columns : Nat) (x : Nat → Rat) :
    (unitRow leaving column).value columns x =
      leaving.value columns x * (1 / leaving.entry column) :=
  leaving.value_scale _ columns x

theorem pivot_getElem (rows : List Row) (column place : Nat) (leaving : Row) (i : Nat) :
    (pivot rows column place leaving)[i]? = rows[i]?.map fun row =>
      if i = place then unitRow leaving column
      else row.reduce (unitRow leaving column) (row.entry column) := by
  unfold pivot unitRow
  rw [List.getElem?_map, List.getElem?_zipIdx, Option.map_map]
  simp only [Nat.zero_add]
  rfl

variable {columns : Nat} {rows : List Row} {column place : Nat} {leaving : Row}

theorem pivot_row_cases {i : Nat} {row : Row}
    (listed : (pivot rows column place leaving)[i]? = some row) :
    i = place ∧ row = unitRow leaving column ∨
      i ≠ place ∧ ∃ before, rows[i]? = some before ∧
        row = before.reduce (unitRow leaving column) (before.entry column) := by
  rw [pivot_getElem, Option.map_eq_some_iff] at listed
  obtain ⟨before, listed, same⟩ := listed
  split_ifs at same with here
  · exact Or.inl ⟨here, same.symm⟩
  · exact Or.inr ⟨here, before, listed, same.symm⟩

theorem unit_entry_self (leaves : Leaves rows column place leaving) :
    (unitRow leaving column).entry column = 1 := by
  rw [unit_entry, mul_one_div, div_self leaves.positive.ne']

/-- The leaving row reaches zero first, so that no other bound falls below it. -/
theorem reduced_bound_nonneg (tableau : Tableau columns rows)
    (leaves : Leaves rows column place leaving) {row : Row} (member : row ∈ rows) :
    0 ≤ (row.reduce (unitRow leaving column) (row.entry column)).bound := by
  have above := tableau.nonneg row member
  have leavingAbove := tableau.nonneg leaving (List.mem_of_getElem? leaves.listed)
  have share : 0 ≤ leaving.bound * (1 / leaving.entry column) :=
    mul_nonneg leavingAbove (one_div_nonneg.mpr leaves.positive.le)
  rw [Row.bound_reduce, unit_bound, sub_nonneg]
  rcases le_or_gt (row.entry column) 0 with below | positive
  · exact (mul_nonpos_of_nonpos_of_nonneg below share).trans above
  · have first := leaves.first row member positive
    rw [mul_one_div, mul_div_assoc', div_le_iff₀ leaves.positive, mul_comm]
    exact first

/-- The pivot row has no entry in the basic columns of the others, and so reducing by it leaves them
as they were. -/
theorem pivot_basics (tableau : Tableau columns rows)
    (leaves : Leaves rows column place leaving) (inside : column < columns) (i j : Nat)
    (row other : Row) (listed : (pivot rows column place leaving)[i]? = some row)
    (listed' : (pivot rows column place leaving)[j]? = some other) (basic : Nat)
    (isBasic : row.basic = some basic) :
    basic < columns ∧ other.entry basic = if i = j then 1 else 0 := by
  have reduced : ∀ {before : Row}, before ∈ rows → ∀ {k : Nat}, k < columns →
      (before.reduce (unitRow leaving column) (before.entry column)).entry k =
        before.entry k - before.entry column * (unitRow leaving column).entry k := by
    intro before member k within
    exact before.entry_reduce _ _ ((tableau.sized before member).symm ▸ within)
  rcases pivot_row_cases listed with ⟨rfl, rfl⟩ | ⟨elsewhere, before, earlier, rfl⟩
  · obtain rfl : column = basic := Option.some.inj isBasic
    refine ⟨inside, ?_⟩
    rcases pivot_row_cases listed' with ⟨rfl, rfl⟩ | ⟨elsewhere, before, earlier, rfl⟩
    · rw [if_pos rfl, unit_entry_self leaves]
    · rw [if_neg (Ne.symm elsewhere), reduced (List.mem_of_getElem? earlier) inside,
        unit_entry_self leaves, mul_one, sub_self]
  · rw [Row.basic_reduce] at isBasic
    obtain ⟨within, absent⟩ := tableau.basics i place before leaving earlier leaves.listed basic
      isBasic
    rw [if_neg elsewhere] at absent
    have unitAbsent : (unitRow leaving column).entry basic = 0 := by
      rw [unit_entry, absent, zero_mul]
    refine ⟨within, ?_⟩
    rcases pivot_row_cases listed' with ⟨rfl, rfl⟩ | ⟨-, before', earlier', rfl⟩
    · rw [if_neg elsewhere, unitAbsent]
    · rw [reduced (List.mem_of_getElem? earlier') within, unitAbsent, mul_zero, sub_zero]
      exact (tableau.basics i j before before' earlier earlier' basic isBasic).2

theorem pivot_preserves_tableau (tableau : Tableau columns rows)
    (leaves : Leaves rows column place leaving) (inside : column < columns) :
    Tableau columns (pivot rows column place leaving) := by
  have member := List.mem_of_getElem? leaves.listed
  constructor
  · intro row listed
    obtain ⟨i, listed, -⟩ := numbered_row listed
    rcases pivot_row_cases listed with ⟨-, rfl⟩ | ⟨-, before, earlier, rfl⟩
    · exact (leaving.size_scale _).trans (tableau.sized leaving member)
    · rw [Row.size_reduce]
      exact tableau.sized before (List.mem_of_getElem? earlier)
  · intro row listed
    obtain ⟨i, listed, -⟩ := numbered_row listed
    rcases pivot_row_cases listed with ⟨-, rfl⟩ | ⟨-, before, earlier, rfl⟩
    · rw [unit_bound]
      exact mul_nonneg (tableau.nonneg leaving member)
        (one_div_nonneg.mpr leaves.positive.le)
    · exact reduced_bound_nonneg tableau leaves (List.mem_of_getElem? earlier)
  · exact pivot_basics tableau leaves inside

theorem pivot_solves_iff (sized : ∀ row ∈ rows, row.coefficients.size = columns)
    (leaves : Leaves rows column place leaving) (x : Nat → Rat) :
    Solves columns (pivot rows column place leaving) x ↔ Solves columns rows x := by
  have apart := leaves.positive.ne'
  have unitSolved : leaving.value columns x = leaving.bound ↔
      (unitRow leaving column).value columns x = (unitRow leaving column).bound := by
    rw [unit_value, unit_bound, mul_left_inj' (one_div_ne_zero apart)]
  have reducedSolved : (unitRow leaving column).value columns x = (unitRow leaving column).bound →
      ∀ row ∈ rows, row.value columns x = row.bound ↔
        (row.reduce (unitRow leaving column) (row.entry column)).value columns x =
          (row.reduce (unitRow leaving column) (row.entry column)).bound := by
    intro unit row member
    rw [Row.value_reduce _ _ _ _ (sized row member), Row.bound_reduce, unit, sub_left_inj]
  have after : ∀ {i : Nat} {row : Row}, rows[i]? = some row →
      (pivot rows column place leaving)[i]? = some (if i = place then unitRow leaving column
        else row.reduce (unitRow leaving column) (row.entry column)) := by
    intro i row listed
    rw [pivot_getElem, listed, Option.map_some]
  constructor
  · intro solved
    have unit := solved _ (List.mem_of_getElem? (after leaves.listed))
    rw [if_pos rfl] at unit
    intro row member
    obtain ⟨i, listed, -⟩ := numbered_row member
    by_cases here : i = place
    · subst here
      rw [leaves.listed, Option.some.injEq] at listed
      rw [← listed]
      exact unitSolved.mpr unit
    · have reduced := solved _ (List.mem_of_getElem? (after listed))
      rw [if_neg here] at reduced
      exact (reducedSolved unit row member).mpr reduced
  · intro solved row member
    have unit := unitSolved.mp (solved leaving (List.mem_of_getElem? leaves.listed))
    obtain ⟨i, listed, -⟩ := numbered_row member
    rcases pivot_row_cases listed with ⟨-, rfl⟩ | ⟨-, before, earlier, rfl⟩
    · exact unit
    · have member' := List.mem_of_getElem? earlier
      exact (reducedSolved unit before member').mp (solved before member')

/-! ## Shortfalls and gains -/

/-- The rows that have a shortfall. -/
def lacking (rows : List Row) : List Row :=
  rows.filter fun row => row.basic.isNone

theorem fold_lacking (rows : List Row) (amount : Row → Rat) (start : Rat) :
    rows.foldl (fun sum row => if row.basic.isNone then sum + amount row else sum) start =
      start + ((lacking rows).map amount).sum := by
  induction rows generalizing start with
  | nil => simp [lacking]
  | cons row rest ih =>
      rw [List.foldl_cons, ih]
      unfold lacking
      rw [List.filter_cons]
      split_ifs
      · rw [List.map_cons, List.sum_cons, add_assoc]
      · rfl

theorem shortfall_eq (rows : List Row) :
    shortfall rows = ((lacking rows).map fun row => row.bound).sum := by
  rw [shortfall, fold_lacking, zero_add]

theorem gain_eq (rows : List Row) (column : Nat) :
    gain rows column = ((lacking rows).map fun row => row.entry column).sum := by
  rw [gain, fold_lacking, zero_add]

theorem mem_lacking {row : Row} : row ∈ lacking rows ↔ row ∈ rows ∧ row.basic = none := by
  simp [lacking]

theorem shortfall_nonneg (tableau : Tableau columns rows) : 0 ≤ shortfall rows := by
  rw [shortfall_eq]
  apply List.sum_nonneg
  intro amount member
  obtain ⟨row, lacks, rfl⟩ := List.mem_map.mp member
  exact tableau.nonneg row (mem_lacking.mp lacks).1

theorem no_row_lacks (tableau : Tableau columns rows) (none : shortfall rows = 0) {row : Row}
    (member : row ∈ rows) (lacks : row.basic = Option.none) : row.bound = 0 := by
  rw [shortfall_eq] at none
  refine List.all_zero_of_le_zero_le_of_sum_eq_zero (fun amount listed => ?_) none
    (List.mem_map_of_mem (mem_lacking.mpr ⟨member, lacks⟩))
  obtain ⟨other, lacks', rfl⟩ := List.mem_map.mp listed
  exact tableau.nonneg other (mem_lacking.mp lacks').1

theorem values_by_column (rows : List Row) (columns : Nat) (x : Nat → Rat) :
    (rows.map fun row => row.value columns x).sum =
      ∑ column ∈ Finset.range columns, (rows.map fun row => row.entry column).sum * x column := by
  induction rows with
  | nil => simp
  | cons row rest ih =>
      simp only [List.map_cons, List.sum_cons, add_mul, Finset.sum_add_distrib]
      rw [ih]
      rfl

/-- No column lowers the shortfall any more. -/
def Settled (columns : Nat) (rows : List Row) : Prop :=
  ∀ column < columns, gain rows column ≤ 0

/-- Added up over the rows that lack something, what a point puts into its columns can never make up
a shortfall that no column lowers. -/
theorem shortfall_unmet (settled : Settled columns rows) {x : Nat → Rat}
    (nonneg : ∀ column < columns, 0 ≤ x column) (solves : Solves columns rows x) :
    shortfall rows ≤ 0 := by
  calc shortfall rows = ((lacking rows).map fun row => row.value columns x).sum := by
        rw [shortfall_eq]
        refine congrArg List.sum (List.map_congr_left fun row lacks => ?_)
        exact (solves row (mem_lacking.mp lacks).1).symm
    _ = ∑ column ∈ Finset.range columns, gain rows column * x column := by
        rw [values_by_column]
        exact Finset.sum_congr rfl fun column _ => by rw [gain_eq]
    _ ≤ 0 := by
        apply Finset.sum_nonpos
        intro column inside
        have within := Finset.mem_range.mp inside
        exact mul_nonpos_of_nonpos_of_nonneg (settled column within) (nonneg column within)

/-! ## The entering column -/

def steeper (rows : List Row) (best : Option (Nat × Rat)) (column : Nat) : Option (Nat × Rat) :=
  let mine := gain rows column
  match best with
  | some (_, leader) => if leader < mine then some (column, mine) else best
  | none => if 0 < mine then some (column, mine) else none

inductive Steepest (rows : List Row) (seen : List Nat) : Option (Nat × Rat) → Prop where
  | none (settled : ∀ column ∈ seen, gain rows column ≤ 0) : Steepest rows seen none
  | some {column : Nat} {mine : Rat} (listed : column ∈ seen) (known : mine = gain rows column)
      (gains : 0 < mine) : Steepest rows seen (some (column, mine))

theorem steepest_step {rows : List Row} {seen : List Nat} {best : Option (Nat × Rat)}
    (known : Steepest rows seen best) (candidate : Nat) :
    Steepest rows (seen ++ [candidate]) (steeper rows best candidate) := by
  have last : candidate ∈ seen ++ [candidate] := by simp
  unfold steeper
  cases known with
  | none settled =>
      dsimp only
      split_ifs with gains
      · exact .some last rfl gains
      · refine .none fun column member => ?_
        rcases List.mem_append.mp member with earlier | new
        · exact settled column earlier
        · exact List.mem_singleton.mp new ▸ not_lt.mp gains
  | some listed known gains =>
      dsimp only
      split_ifs with steeper
      · exact .some last rfl (gains.trans steeper)
      · exact .some (List.mem_append_left _ listed) known gains

theorem steepest_known (rows : List Row) (seen : List Nat) :
    Steepest rows seen (seen.foldl (steeper rows) none) := by
  induction seen using List.reverseRecOn with
  | nil => exact .none nofun
  | append_singleton seen candidate ih =>
      rw [List.foldl_append]
      exact steepest_step ih candidate

/-- A column enters only if it lowers the shortfall, and none does only if no column lowers it. -/
inductive Entering (columns : Nat) (rows : List Row) : Option Nat → Prop where
  | none (settled : Settled columns rows) : Entering columns rows none
  | some {column : Nat} (inside : column < columns) (gains : 0 < gain rows column) :
      Entering columns rows (some column)

theorem entering_column (columns : Nat) (rows : List Row) (stalled : Bool) :
    Entering columns rows (enteringColumn? rows columns stalled) := by
  unfold enteringColumn?
  cases stalled with
  | true =>
      rw [if_pos rfl, firstGain?]
      cases found : (List.range columns).find? fun column => decide (0 < gain rows column) with
      | none =>
          refine .none fun column inside => ?_
          have passed := List.find?_eq_none.mp found column (List.mem_range.mpr inside)
          exact not_lt.mp (of_decide_eq_false (Bool.eq_false_iff.mpr passed))
      | some column =>
          have gains : 0 < gain rows column := by simpa using List.find?_some found
          exact .some (List.mem_range.mp (List.mem_of_find?_eq_some found)) gains
  | false =>
      have known := steepest_known rows (List.range columns)
      change Entering columns rows
        (((List.range columns).foldl (steeper rows) Option.none).map (·.1))
      generalize (List.range columns).foldl (steeper rows) Option.none = best at known ⊢
      cases known with
      | none settled =>
          exact .none fun column inside => settled column (List.mem_range.mpr inside)
      | some listed known gains => exact .some (List.mem_range.mp listed) (known ▸ gains)

/-! ## The whole method -/

theorem limited_of_gain {rows : List Row} {column : Nat} (gains : 0 < gain rows column) :
    leavingRow? rows column ≠ none := by
  intro none
  have bounded : gain rows column ≤ 0 := by
    rw [gain_eq]
    refine (List.sum_le_card_nsmul _ 0 fun amount member => ?_).trans (nsmul_zero _).le
    obtain ⟨row, lacks, rfl⟩ := List.mem_map.mp member
    exact no_leaving_row none row (mem_lacking.mp lacks).1
  exact absurd gains (not_lt.mpr bounded)

theorem settle_settles {fuel : Nat} {stalled : Bool} {start : List Row}
    (tableau : Tableau columns start) (settled : settle? columns fuel stalled start = some rows) :
    Tableau columns rows ∧ Settled columns rows ∧
      ∀ x, Solves columns rows x ↔ Solves columns start x := by
  induction fuel generalizing start stalled with
  | zero => cases settled
  | succ fuel ih =>
      have entering := entering_column columns start stalled
      unfold settle? at settled
      generalize enteringColumn? start columns stalled = entered at entering settled
      cases entering with
      | none finished =>
          cases settled
          exact ⟨tableau, finished, fun x => Iff.rfl⟩
      | @some column inside gains =>
          dsimp only at settled
          cases found : leavingRow? start column with
          | none => exact absurd found (limited_of_gain gains)
          | some pair =>
              obtain ⟨place, leaving⟩ := pair
              rw [found] at settled
              have leaves := leaving_row_leaves found
              obtain ⟨after, finished, same⟩ :=
                ih (pivot_preserves_tableau tableau leaves inside) settled
              refine ⟨after, finished, fun x => ?_⟩
              rw [same, pivot_solves_iff tableau.sized leaves]

/-- The bounds of the rows, put into their basic columns. -/
def basicPoint (rows : List Row) (column : Nat) : Rat :=
  match rows.find? fun row => row.basic = some column with
  | some row => row.bound
  | none => 0

theorem point_of_getD (rows : List Row) {unknowns k : Nat} (inside : k < unknowns) :
    (pointOf rows unknowns).getD k 0 = basicPoint rows k := by
  unfold pointOf
  rw [List.getD_eq_getElem?_getD, List.getElem?_map, List.getElem?_range inside]
  rfl

theorem basic_point_nonneg (tableau : Tableau columns rows) (column : Nat) :
    0 ≤ basicPoint rows column := by
  unfold basicPoint
  split
  case h_1 row found => exact tableau.nonneg row (List.mem_of_find?_eq_some found)
  case h_2 => exact le_rfl

/-- In every row the basic point meets a single entry, that of the row's own column. -/
theorem basic_point_term (tableau : Tableau columns rows) {row : Row} (member : row ∈ rows)
    (column : Nat) : row.entry column * basicPoint rows column =
      if row.basic = some column then row.bound else 0 := by
  obtain ⟨i, listed, -⟩ := numbered_row member
  unfold basicPoint
  split
  case h_1 other found =>
    obtain ⟨j, listed', -⟩ := numbered_row (List.mem_of_find?_eq_some found)
    have isBasic : other.basic = some column := by simpa using List.find?_some found
    obtain ⟨-, entry⟩ := tableau.basics j i other row listed' listed column isBasic
    by_cases same : j = i
    · subst same
      rw [listed, Option.some.injEq] at listed'
      rw [entry, if_pos rfl, one_mul, listed', if_pos isBasic]
    · rw [entry, if_neg same, zero_mul, if_neg]
      intro own
      have single := (tableau.basics i i row row listed listed column own).2
      rw [if_pos rfl, entry, if_neg same] at single
      exact absurd single zero_ne_one
  case h_2 none =>
    rw [mul_zero, if_neg]
    simpa using List.find?_eq_none.mp none row member

theorem basic_point_solves (tableau : Tableau columns rows) (none : shortfall rows = 0) :
    Solves columns rows (basicPoint rows) := by
  intro row member
  unfold Row.value
  rw [Finset.sum_congr rfl fun column _ => basic_point_term tableau member column]
  cases basic : row.basic with
  | none =>
      rw [no_row_lacks tableau none member basic]
      simp
  | some column =>
      obtain ⟨i, listed, -⟩ := numbered_row member
      have inside := (tableau.basics i i row row listed listed column basic).1
      simp [inside]

/-! ## The rows to start from -/

def Short (s : LinearSystem) : Prop :=
  ∀ form ∈ s.equal ++ s.atMost, form.coefficients.length ≤ s.unknowns

def columnCount (s : LinearSystem) : Nat :=
  s.unknowns + s.atMost.length

def slackAt (s : LinearSystem) (i : Nat) : Option Nat :=
  if i < s.equal.length then none else some (s.unknowns + (i - s.equal.length))

theorem start_rows_getElem (s : LinearSystem) (i : Nat) :
    s.startRows[i]? = (s.equal ++ s.atMost)[i]?.map fun form =>
      startRow s.columnCount form (s.slackAt i) := by
  unfold startRows slackAt columnCount
  dsimp only
  rw [List.getElem?_append, List.getElem?_append, List.length_map]
  split_ifs with early
  · rw [List.getElem?_map]
  · rw [List.getElem?_map, List.getElem?_zipIdx, Option.map_map]
    simp only [Nat.zero_add]
    rfl

theorem start_row_size (columns : Nat) (form : LinearForm) (slack : Option Nat) :
    (startRow columns form slack).coefficients.size = columns := by
  unfold startRow
  dsimp only
  split_ifs
  · rw [Row.size_scale]
    simp
  · simp

theorem start_row_bound_eq (columns : Nat) (form : LinearForm) (slack : Option Nat) :
    (startRow columns form slack).bound = form.bound * if form.bound < 0 then -1 else 1 := by
  unfold startRow
  dsimp only
  by_cases below : form.bound < 0
  · rw [if_pos below, if_pos below]
    rfl
  · rw [if_neg below, if_neg below, mul_one]

theorem start_row_bound (columns : Nat) (form : LinearForm) (slack : Option Nat) :
    0 ≤ (startRow columns form slack).bound := by
  rw [start_row_bound_eq]
  split_ifs with below
  · linarith
  · rw [mul_one]
    exact not_lt.mp below

theorem start_row_entry {columns : Nat} (form : LinearForm) (slack : Option Nat) {column : Nat}
    (inside : column < columns) : (startRow columns form slack).entry column =
      (if slack = some column then 1 else form.coefficients.getD column 0) *
        if form.bound < 0 then -1 else 1 := by
  have laidOut : ∀ (bound : Rat) (basic : Option Nat),
      (Row.mk ((Array.range columns).map fun k =>
        if slack = some k then 1 else form.coefficients.getD k 0) bound basic).entry column =
        if slack = some column then 1 else form.coefficients.getD column 0 := by
    intro bound basic
    simp [Row.entry, Array.getD_eq_getD_getElem?, inside]
  unfold startRow
  dsimp only
  by_cases below : form.bound < 0
  · rw [if_pos below, if_pos below, Row.entry_scale, laidOut]
  · rw [if_neg below, if_neg below, laidOut, mul_one]

theorem start_row_basic {columns : Nat} {form : LinearForm} {slack : Option Nat} {column : Nat}
    (isBasic : (startRow columns form slack).basic = some column) :
    slack = some column ∧ ¬ form.bound < 0 := by
  unfold startRow at isBasic
  dsimp only at isBasic
  split_ifs at isBasic with below
  · cases isBasic
  · exact ⟨isBasic, below⟩

theorem coefficient_past_unknowns {s : LinearSystem} (short : s.Short) {form : LinearForm}
    (listed : form ∈ s.equal ++ s.atMost) {column : Nat} (past : s.unknowns ≤ column) :
    form.coefficients.getD column 0 = 0 :=
  List.getD_eq_default _ _ ((short form listed).trans past)

theorem slack_inside {s : LinearSystem} {i column : Nat}
    (listed : i < (s.equal ++ s.atMost).length) (slack : s.slackAt i = some column) :
    s.unknowns ≤ column ∧ column < s.columnCount := by
  unfold slackAt at slack
  unfold columnCount
  rw [List.length_append] at listed
  split_ifs at slack
  cases slack
  omega

theorem start_tableau {s : LinearSystem} (short : s.Short) :
    Tableau s.columnCount s.startRows := by
  have started : ∀ {i : Nat} {row : Row}, s.startRows[i]? = some row →
      ∃ form, (s.equal ++ s.atMost)[i]? = some form ∧
        row = startRow s.columnCount form (s.slackAt i) := by
    intro i row listed
    rw [start_rows_getElem, Option.map_eq_some_iff] at listed
    obtain ⟨form, listed, same⟩ := listed
    exact ⟨form, listed, same.symm⟩
  constructor
  · intro row member
    obtain ⟨i, listed, -⟩ := numbered_row member
    obtain ⟨form, -, rfl⟩ := started listed
    exact start_row_size _ form _
  · intro row member
    obtain ⟨i, listed, -⟩ := numbered_row member
    obtain ⟨form, -, rfl⟩ := started listed
    exact start_row_bound _ form _
  · intro i j row other listed listed' column isBasic
    obtain ⟨form, formListed, rfl⟩ := started listed
    obtain ⟨form', formListed', rfl⟩ := started listed'
    obtain ⟨slack, upright⟩ := start_row_basic isBasic
    obtain ⟨iInside, -⟩ := List.getElem?_eq_some_iff.mp formListed
    obtain ⟨past, inside⟩ := slack_inside iInside slack
    refine ⟨inside, ?_⟩
    rw [start_row_entry form' _ inside]
    by_cases same : i = j
    · subst same
      rw [formListed, Option.some.injEq] at formListed'
      rw [if_pos slack, if_pos rfl, ← formListed', if_neg upright, one_mul]
    · have apart : s.slackAt j ≠ some column := by
        intro slack'
        unfold slackAt at slack slack'
        split_ifs at slack slack'
        have place := Option.some.inj slack
        have place' := Option.some.inj slack'
        omega
      rw [if_neg apart, if_neg same,
        coefficient_past_unknowns short (List.mem_of_getElem? formListed') past, zero_mul]

theorem start_row_value (columns : Nat) (form : LinearForm) (slack : Option Nat) (x : Nat → Rat) :
    (startRow columns form slack).value columns x =
      (∑ column ∈ Finset.range columns,
        (if slack = some column then 1 else form.coefficients.getD column 0) * x column) *
        if form.bound < 0 then -1 else 1 := by
  unfold Row.value
  rw [Finset.sum_mul]
  apply Finset.sum_congr rfl
  intro column inside
  rw [start_row_entry form slack (Finset.mem_range.mp inside)]
  ring

theorem laid_out_value {s : LinearSystem} (short : s.Short) {form : LinearForm}
    (listed : form ∈ s.equal ++ s.atMost) {slack : Option Nat}
    (placed : ∀ column, slack = some column → s.unknowns ≤ column ∧ column < s.columnCount)
    (x : Nat → Rat) :
    ∑ column ∈ Finset.range s.columnCount,
        (if slack = some column then 1 else form.coefficients.getD column 0) * x column =
      form.value s.unknowns x + slack.elim 0 x := by
  have past : ∀ {column : Nat}, s.unknowns ≤ column → form.coefficients.getD column 0 = 0 :=
    coefficient_past_unknowns short listed
  have apart : ∀ column, (if slack = some column then 1 else form.coefficients.getD column 0) *
      x column = form.coefficients.getD column 0 * x column +
        if slack = some column then x column else 0 := by
    intro column
    split_ifs with here
    · rw [past (placed column here).1, one_mul, zero_mul, zero_add]
    · rw [add_zero]
  have formPart : ∑ column ∈ Finset.range s.columnCount,
      form.coefficients.getD column 0 * x column = form.value s.unknowns x := by
    refine (Finset.sum_subset (Finset.range_subset_range.mpr (Nat.le_add_right _ _)) ?_).symm
    intro column _ outside
    rw [past (not_lt.mp (mt Finset.mem_range.mpr outside)), zero_mul]
  have slackPart : (∑ column ∈ Finset.range s.columnCount,
      if slack = some column then x column else 0) = slack.elim 0 x := by
    cases slack with
    | none => simp
    | some k => simp [(placed k rfl).2]
  simp only [apart]
  rw [Finset.sum_add_distrib, formPart, slackPart]

theorem solves_start_iff {s : LinearSystem} (short : s.Short) (x : Nat → Rat) :
    Solves s.columnCount s.startRows x ↔
      ∀ i form, (s.equal ++ s.atMost)[i]? = some form →
        form.value s.unknowns x + (s.slackAt i).elim 0 x = form.bound := by
  have each : ∀ {i : Nat} {form : LinearForm}, (s.equal ++ s.atMost)[i]? = some form →
      ((startRow s.columnCount form (s.slackAt i)).value s.columnCount x =
          (startRow s.columnCount form (s.slackAt i)).bound ↔
        form.value s.unknowns x + (s.slackAt i).elim 0 x = form.bound) := by
    intro i form listed
    obtain ⟨inside, -⟩ := List.getElem?_eq_some_iff.mp listed
    have sign : (if form.bound < 0 then -1 else 1 : Rat) ≠ 0 := by
      split_ifs <;> norm_num
    rw [start_row_value, start_row_bound_eq, mul_left_inj' sign,
      laid_out_value short (List.mem_of_getElem? listed) fun column => slack_inside inside]
  constructor
  · intro solves i form listed
    refine (each listed).mp (solves _ (List.mem_of_getElem? (i := i) ?_))
    rw [start_rows_getElem, listed, Option.map_some]
  · intro holds row member
    obtain ⟨i, listed, -⟩ := numbered_row member
    rw [start_rows_getElem, Option.map_eq_some_iff] at listed
    obtain ⟨form, listed, rfl⟩ := listed
    exact (each listed).mpr (holds i form listed)

/-- A point with what it leaves of every limit. -/
def withSlack (s : LinearSystem) (x : Nat → Rat) (column : Nat) : Rat :=
  if column < s.unknowns then x column
  else match s.atMost[column - s.unknowns]? with
    | some form => form.bound - form.value s.unknowns x
    | none => 0

theorem value_congr (form : LinearForm) {unknowns : Nat} {x y : Nat → Rat}
    (same : ∀ k < unknowns, x k = y k) : form.value unknowns x = form.value unknowns y := by
  unfold LinearForm.value
  apply Finset.sum_congr rfl
  intro k inside
  rw [same k (Finset.mem_range.mp inside)]

theorem Satisfies.congr {s : LinearSystem} {x y : Nat → Rat} (satisfies : s.Satisfies x)
    (same : ∀ k < s.unknowns, x k = y k) : s.Satisfies y := by
  constructor
  · exact fun k inside => same k inside ▸ satisfies.nonneg k inside
  · exact fun form member => value_congr form same ▸ satisfies.equal form member
  · exact fun form member => value_congr form same ▸ satisfies.atMost form member

theorem solves_of_satisfies {s : LinearSystem} (short : s.Short) {x : Nat → Rat}
    (satisfies : s.Satisfies x) :
    Solves s.columnCount s.startRows (s.withSlack x) ∧ ∀ column, 0 ≤ s.withSlack x column := by
  have unchanged : ∀ form : LinearForm,
      form.value s.unknowns (s.withSlack x) = form.value s.unknowns x := fun form =>
    value_congr form fun k inside => if_pos inside
  constructor
  · rw [solves_start_iff short]
    intro i form listed
    rw [unchanged, slackAt]
    split_ifs with early
    · rw [List.getElem?_append_left early] at listed
      rw [satisfies.equal form (List.mem_of_getElem? listed)]
      exact add_zero _
    · rw [List.getElem?_append_right (not_lt.mp early)] at listed
      have left : s.withSlack x (s.unknowns + (i - s.equal.length)) =
          form.bound - form.value s.unknowns x := by
        unfold withSlack
        rw [if_neg (by omega), Nat.add_sub_cancel_left, listed]
      rw [Option.elim_some, left]
      ring
  · intro column
    unfold withSlack
    split_ifs with inside
    · exact satisfies.nonneg column inside
    · split
      case h_1 form listed =>
        exact sub_nonneg.mpr (satisfies.atMost form (List.mem_of_getElem? listed))
      case h_2 => exact le_rfl

theorem satisfies_of_solves {s : LinearSystem} (short : s.Short) {x : Nat → Rat}
    (nonneg : ∀ column, 0 ≤ x column) (solves : Solves s.columnCount s.startRows x) :
    s.Satisfies x := by
  rw [solves_start_iff short] at solves
  constructor
  · exact fun k _ => nonneg k
  · intro form member
    obtain ⟨i, inside, rfl⟩ := List.getElem_of_mem member
    have solved := solves i s.equal[i] (by
      rw [List.getElem?_append_left inside, List.getElem?_eq_getElem inside])
    rwa [slackAt, if_pos inside, Option.elim_none, add_zero] at solved
  · intro form member
    obtain ⟨i, inside, rfl⟩ := List.getElem_of_mem member
    have solved := solves (s.equal.length + i) s.atMost[i] (by
      rw [List.getElem?_append_right (Nat.le_add_right _ _), Nat.add_sub_cancel_left,
        List.getElem?_eq_getElem inside])
    rw [slackAt, if_neg (by omega), Option.elim_some] at solved
    have left := nonneg (s.unknowns + (s.equal.length + i - s.equal.length))
    linarith

/-- A point that is answered without a shortfall satisfies the system, and a shortfall is left over
only if no point does. -/
theorem least_shortfall_decides (s : LinearSystem) (short : s.Short) {fuel : Nat}
    {point : List Rat} {lack : Rat} (answered : s.leastShortfall? fuel = some (point, lack)) :
    0 ≤ lack ∧ (lack = 0 → s.Satisfies fun k => point.getD k 0) ∧
      (0 < lack → ∀ x, ¬ s.Satisfies x) := by
  unfold leastShortfall? at answered
  obtain ⟨rows, settled, same⟩ := Option.map_eq_some_iff.mp answered
  cases same
  obtain ⟨tableau, finished, solves⟩ := settle_settles (start_tableau short) settled
  refine ⟨shortfall_nonneg tableau, fun none => ?_, fun lacks x satisfies => ?_⟩
  · have satisfied := satisfies_of_solves short (basic_point_nonneg tableau)
      ((solves _).mp (basic_point_solves tableau none))
    refine satisfied.congr fun k inside => ?_
    rw [point_of_getD rows inside]
  · obtain ⟨solved, nonneg⟩ := solves_of_satisfies short satisfies
    have within := shortfall_unmet finished (fun column _ => nonneg column)
      ((solves _).mpr solved)
    exact absurd lacks (not_lt.mpr within)

end LinearSystem
end EdgePlacement
