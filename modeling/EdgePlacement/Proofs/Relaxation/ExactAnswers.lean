import EdgePlacement.Proofs.Relaxation.Pivots
import EdgePlacement.Proofs.Relaxation.Statements
import EdgePlacement.Relaxation.Solve

/-!
# What the exact solver answers

The exact solver reads a program as the rationals that its numbers stand for, measures every unknown
from its least value and hands the system to the simplex method. It says that a program has no point
only where no rational one is admitted.
-/

namespace EdgePlacement.ExactSolver

open EdgePlacement.Decimal
open MatrixProgram (formValue)

set_option autoImplicit false

def ReadsForm (written : List Float × Float) (read : List Rat × Rat) : Prop :=
  List.Forall₂ (fun word value => exactValue? word = some value) written.1 read.1 ∧
    exactValue? written.2 = some read.2

/-- A program as the numbers that it is written in stand for. What it minimises is left out. -/
structure Reads (p : MatrixProgram Float) (q : MatrixProgram Rat) : Prop where
  least : exactValue? p.least = some q.least
  most : exactValue? p.most = some q.most
  upper : List.Forall₂ ReadsForm p.upper q.upper
  equal : List.Forall₂ ReadsForm p.equal q.equal

theorem map_m_reads {β γ : Type} (read : β → Option γ) {written : List β} {values : List γ}
    (all : written.mapM read = some values) :
    List.Forall₂ (fun item value => read item = some value) written values := by
  induction written generalizing values with
  | nil =>
      cases all
      exact .nil
  | cons item rest ih =>
      rw [List.mapM_cons] at all
      obtain ⟨value, first, all⟩ := Option.bind_eq_some_iff.mp all
      obtain ⟨others, later, all⟩ := Option.bind_eq_some_iff.mp all
      cases all
      exact .cons first (ih later)

theorem exact_form_reads {row : List Float × Float} {form : LinearForm}
    (read : exactForm? row.1 row.2 = some form) :
    ReadsForm row (form.coefficients, form.bound) := by
  obtain ⟨coefficients, all, read⟩ := Option.bind_eq_some_iff.mp read
  obtain ⟨bound, one, read⟩ := Option.bind_eq_some_iff.mp read
  cases read
  exact ⟨map_m_reads exactValue? all, one⟩

/-! ## Values measured from the least one -/

theorem form_value_by_position {n : Nat} (row v : List Rat) (short : row.length ≤ n) :
    formValue row v = ∑ k ∈ Finset.range n, row.getD k 0 * v.getD k 0 := by
  induction row generalizing n v with
  | nil => simp [formValue, Quantity.total]
  | cons c row ih =>
      cases v with
      | nil => simp [MatrixProgram.form_value_nil_right]
      | cons x v =>
          obtain ⟨m, rfl⟩ := Nat.exists_eq_succ_of_ne_zero (Nat.ne_zero_of_lt short)
          rw [MatrixProgram.form_value_cons, Finset.sum_range_succ',
            ih v (Nat.le_of_succ_le_succ short), add_comm]
          rfl

theorem fold_least {n : Nat} (row : List Rat) (least start : Rat) (short : row.length ≤ n) :
    row.foldl (fun sum c => sum + c * least) start =
      start + ∑ k ∈ Finset.range n, row.getD k 0 * least := by
  induction row generalizing n start with
  | nil => simp
  | cons c row ih =>
      obtain ⟨m, rfl⟩ := Nat.exists_eq_succ_of_ne_zero (Nat.ne_zero_of_lt short)
      rw [List.foldl_cons, ih (start + c * least) (Nat.le_of_succ_le_succ short),
        Finset.sum_range_succ', add_assoc, add_comm (c * least)]
      rfl

/-- The distances of the unknowns from their least value, as the system has them. -/
def distances (least : Rat) (v : List Rat) (k : Nat) : Rat :=
  v.getD k 0 - least

/-- A form is shifted by its own value at the point where all unknowns are least. -/
theorem shifted_gap {n : Nat} (form : LinearForm) (least : Rat) (v : List Rat)
    (short : form.coefficients.length ≤ n) :
    (shift least form).bound - (shift least form).value n (distances least v) =
      form.bound - formValue form.coefficients v := by
  have apart : (shift least form).value n (distances least v) =
      ∑ k ∈ Finset.range n, form.coefficients.getD k 0 * v.getD k 0 -
        ∑ k ∈ Finset.range n, form.coefficients.getD k 0 * least := by
    rw [← Finset.sum_sub_distrib]
    unfold LinearForm.value distances shift
    exact Finset.sum_congr rfl fun k _ => mul_sub _ _ _
  have bound : (shift least form).bound =
      form.bound - ∑ k ∈ Finset.range n, form.coefficients.getD k 0 * least := by
    unfold shift
    dsimp only
    rw [fold_least _ _ _ short, zero_add]
  rw [apart, bound, form_value_by_position _ _ short]
  ring

/-! ## Programs as systems -/

def systemOf (q : MatrixProgram Rat) (unknowns : Nat) : LinearSystem :=
  let form (row : List Rat × Rat) : LinearForm := shift q.least ⟨row.1, row.2⟩
  let equal := q.equal.map form
  ⟨unknowns, equal, q.upper.map form ++ boundRows unknowns (q.most - q.least) equal⟩

theorem system_reads {p : MatrixProgram Float} {s : LinearSystem} (read : system? p = some s) :
    ∃ q, Reads p q ∧ s = systemOf q p.objective.length := by
  unfold system? at read
  obtain ⟨-, -, read⟩ := Option.bind_eq_some_iff.mp read
  obtain ⟨least, isLeast, read⟩ := Option.bind_eq_some_iff.mp read
  obtain ⟨most, isMost, read⟩ := Option.bind_eq_some_iff.mp read
  obtain ⟨upper, upperRead, read⟩ := Option.bind_eq_some_iff.mp read
  obtain ⟨equal, equalRead, read⟩ := Option.bind_eq_some_iff.mp read
  cases read
  have rows : ∀ {written : List (List Float × Float)} {forms : List LinearForm},
      (written.mapM fun row => exactForm? row.1 row.2) = some forms →
      List.Forall₂ ReadsForm written (forms.map fun form => (form.coefficients, form.bound)) := by
    intro written forms all
    rw [List.forall₂_map_right_iff]
    exact (map_m_reads _ all).imp fun _ _ read => exact_form_reads read
  refine ⟨⟨[], upper.map fun form => (form.coefficients, form.bound),
    equal.map fun form => (form.coefficients, form.bound), least, most⟩,
    ⟨isLeast, isMost, rows upperRead, rows equalRead⟩, ?_⟩
  unfold systemOf
  simp only [List.map_map]
  rfl

def ShortRows {α : Type} (p : MatrixProgram α) (unknowns : Nat) : Prop :=
  ∀ row ∈ p.upper ++ p.equal, row.1.length ≤ unknowns

theorem reads_short {p : MatrixProgram Float} {q : MatrixProgram Rat} {unknowns : Nat}
    (reads : Reads p q) (short : ShortRows p unknowns) : ShortRows q unknowns := by
  have forms : List.Forall₂ ReadsForm (p.upper ++ p.equal) (q.upper ++ q.equal) :=
    List.rel_append reads.upper reads.equal
  unfold ShortRows at short ⊢
  generalize p.upper ++ p.equal = written at forms short
  generalize q.upper ++ q.equal = read at forms ⊢
  induction forms with
  | nil => exact nofun
  | cons form rest ih =>
      obtain ⟨first, later⟩ := List.forall_mem_cons.mp short
      exact List.forall_mem_cons.mpr ⟨form.1.length_eq ▸ first, ih later⟩

theorem unit_form_value {n k : Nat} (bound : Rat) (x : Nat → Rat) (inside : k < n) :
    (unitForm n k bound).value n x = x k := by
  have entry : ∀ other ∈ Finset.range n, (unitForm n k bound).coefficients.getD other 0 * x other =
      if other = k then x other else 0 := by
    intro other within
    simp [unitForm, List.getD_eq_getElem?_getD, List.getElem?_range (Finset.mem_range.mp within)]
  unfold LinearForm.value
  rw [Finset.sum_congr rfl entry]
  simp [inside]

theorem mem_bound_rows {unknowns : Nat} {most : Rat} {equal : List LinearForm} {form : LinearForm}
    (member : form ∈ boundRows unknowns most equal) :
    ∃ k < unknowns, form = unitForm unknowns k most := by
  obtain ⟨k, inside, kept⟩ := List.mem_filterMap.mp member
  split_ifs at kept
  exact ⟨k, List.mem_range.mp inside, (Option.some.inj kept).symm⟩

theorem system_form_cases {q : MatrixProgram Rat} {unknowns : Nat} {form : LinearForm}
    (member : form ∈ (systemOf q unknowns).atMost) :
    (∃ row ∈ q.upper, form = shift q.least ⟨row.1, row.2⟩) ∨
      ∃ k < unknowns, form = unitForm unknowns k (q.most - q.least) := by
  rcases List.mem_append.mp member with own | bounding
  · obtain ⟨row, listed, rfl⟩ := List.mem_map.mp own
    exact Or.inl ⟨row, listed, rfl⟩
  · exact Or.inr (mem_bound_rows bounding)

theorem system_short {q : MatrixProgram Rat} {unknowns : Nat} (short : ShortRows q unknowns) :
    (systemOf q unknowns).Short := by
  intro form member
  rcases List.mem_append.mp member with equation | limit
  · obtain ⟨row, listed, rfl⟩ := List.mem_map.mp equation
    exact short row (List.mem_append_right _ listed)
  · rcases system_form_cases limit with ⟨row, listed, rfl⟩ | ⟨k, -, rfl⟩
    · exact short row (List.mem_append_left _ listed)
    · simp [unitForm, systemOf]

theorem satisfies_of_admits {q : MatrixProgram Rat} {unknowns : Nat}
    (short : ShortRows q unknowns) {v : List Rat} (sized : v.length = unknowns)
    (admits : q.Admits v) : (systemOf q unknowns).Satisfies (distances q.least v) := by
  have bounds : ∀ k < unknowns, q.least ≤ v.getD k 0 ∧ v.getD k 0 ≤ q.most := by
    intro k inside
    rw [List.getD_eq_getElem _ _ (sized.symm ▸ inside)]
    exact admits.bounds _ (List.getElem_mem _)
  constructor
  · exact fun k inside => sub_nonneg.mpr (bounds k inside).1
  · intro form member
    obtain ⟨row, listed, rfl⟩ := List.mem_map.mp member
    have gap := shifted_gap ⟨row.1, row.2⟩ q.least v (short row (List.mem_append_right _ listed))
    rw [admits.equal row listed, sub_self, sub_eq_zero] at gap
    exact gap.symm
  · intro form member
    rcases system_form_cases member with ⟨row, listed, rfl⟩ | ⟨k, inside, rfl⟩
    · have gap := shifted_gap ⟨row.1, row.2⟩ q.least v (short row (List.mem_append_left _ listed))
      have within := admits.upper row listed
      have left : 0 ≤ row.2 - formValue row.1 v := sub_nonneg.mpr within
      exact sub_nonneg.mp (gap.symm ▸ left)
    · change (unitForm unknowns k (q.most - q.least)).value unknowns _ ≤ q.most - q.least
      rw [unit_form_value _ _ inside]
      exact sub_le_sub_right (bounds k inside).2 q.least

/-- The program is said to have no point only if no rational point is admitted by what its numbers
stand for. -/
theorem infeasible_answer_admits_none (p : MatrixProgram Float)
    (short : ShortRows p p.objective.length) (answered : solveMatrix p = .infeasible) :
    ∃ q, Reads p q ∧ ∀ v, v.length = p.objective.length → ¬ q.Admits v := by
  unfold solveMatrix at answered
  split at answered
  case h_2 => cases answered
  case h_1 system least read isLeast =>
    split at answered
    case h_1 => cases answered
    case h_2 point lack reached =>
      split_ifs at answered with lacks
      obtain ⟨q, reads, rfl⟩ := system_reads read
      have shortRows := reads_short reads short
      obtain ⟨-, -, none⟩ :=
        LinearSystem.least_shortfall_decides _ (system_short shortRows) reached
      have positive : 0 < lack := lt_trans (by norm_num [tolerance]) lacks
      exact ⟨q, reads, fun v sized admits =>
        none positive _ (satisfies_of_admits shortRows sized admits)⟩

/-! ## The relaxation -/

variable (r : Relaxation Float)

theorem row_of_length {ι : Type} (items : List ι) (share : ι → Share) (coefficient : ι → Float) :
    (r.rowOf items share coefficient).length = r.shares.length := by
  have kept : ∀ row : List Float,
      (items.foldl (fun row item => row.set (r.position (share item)) (coefficient item))
        row).length = row.length := by
    induction items with
    | nil => exact fun row => rfl
    | cons item rest ih =>
        intro row
        rw [List.foldl_cons, ih, List.length_set]
  unfold Relaxation.rowOf
  rw [kept, Relaxation.zeroRow, List.length_replicate]

theorem relaxation_rows_short : ShortRows r.matrixProgram r.matrixProgram.objective.length := by
  have objective : r.matrixProgram.objective.length = r.shares.length := row_of_length r _ _ _
  rw [objective]
  intro row member
  rcases List.mem_append.mp member with limit | equation
  · obtain ⟨j, -, dimensions⟩ := List.mem_flatMap.mp limit
    obtain ⟨d, -, rfl⟩ := List.mem_map.mp dimensions
    exact (row_of_length r _ _ _).le
  · obtain ⟨i, -, rfl⟩ := List.mem_map.mp equation
    exact (row_of_length r _ _ _).le

theorem infeasible_relaxation_admits_none
    (answered : r.ask exactSolver .highs = .infeasible) :
    ∃ q, Reads r.matrixProgram q ∧ ∀ v, v.length = r.shares.length → ¬ q.Admits v := by
  have refused : solveMatrix r.matrixProgram = .infeasible := by
    change (solveMatrix r.matrixProgram).map _ = .infeasible at answered
    cases answer : solveMatrix r.matrixProgram <;> rw [answer] at answered <;> cases answered
  obtain ⟨q, reads, none⟩ := infeasible_answer_admits_none _ (relaxation_rows_short r) refused
  have objective : r.matrixProgram.objective.length = r.shares.length := row_of_length r _ _ _
  exact ⟨q, reads, fun v sized => none v (sized.trans objective.symm)⟩

end EdgePlacement.ExactSolver
