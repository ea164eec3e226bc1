import EdgePlacement.Proofs.Binary64.Accumulation
import EdgePlacement.Proofs.LawfulCounters
import EdgePlacement.Proofs.Relaxation.Violations

/-!
# Fractions that are let through

An assignment in binary64 numbers is moved into the unit interval before it is checked. However far
out its entries were, what is let through lies in the interval, its rows sum to one and its loads
keep the capacities, up to what the roundings of a sum can hide. An entry that is no number hides
whatever else its row and its column hold.
-/

namespace EdgePlacement

set_option autoImplicit false

inductive Clipped : Float → Float → Prop where
  | undefined {word : Float} (noNumber : word.isNaN = true) : Clipped word word
  | raised {word : Float} (below : word < 0) : Clipped word 0
  | lowered {word : Float} (above : 1 < word) : Clipped word 1
  | kept {word : Float} (above : 0 ≤ word) (below : word ≤ 1) : Clipped word word

namespace Binary64

open Float.Model Float.Model.UnpackedFloat

/-! ## Clipping -/

theorem zero_le_one : (0 : Float) ≤ 1 := by
  decide +kernel

theorem not_below_zero {word : Float} (above : word.isNaN = true ∨ 0 ≤ word) : ¬ word < 0 :=
  (not_exceeded_cases 0 word).mpr (Or.inr above)

theorem not_above_one {word : Float} (below : word.isNaN = true ∨ word ≤ 1) : ¬ 1 < word :=
  (not_exceeded_cases word 1).mpr (below.imp_right Or.inr)

theorem clipped_iff (word moved : Float) :
    Quantity.clipToUnit word = moved ↔ Clipped word moved := by
  unfold Quantity.clipToUnit
  constructor
  · rintro rfl
    split_ifs with below above
    · exact .raised below
    · exact .lowered above
    · rcases (not_exceeded_cases 0 word).mp below with absurdity | noNumber | notBelow
      · exact absurd absurdity (by decide +kernel)
      · exact .undefined noNumber
      · rcases (not_exceeded_cases word 1).mp above with noNumber | absurdity | notAbove
        · exact .undefined noNumber
        · exact absurd absurdity (by decide +kernel)
        · exact .kept notBelow notAbove
  · intro clipped
    cases clipped with
    | undefined noNumber =>
        rw [if_neg (not_below_zero (Or.inl noNumber)), if_neg (not_above_one (Or.inl noNumber))]
    | raised below => rw [if_pos below]
    | lowered above =>
        have atLeast := LawfulCounter.le_of_lt 1 word above
        have positive := LawfulCounter.trans 0 1 word zero_le_one atLeast
        rw [if_neg (not_below_zero (Or.inr positive)), if_pos above]
    | kept above below =>
        rw [if_neg (not_below_zero (Or.inr above)), if_neg (not_above_one (Or.inr below))]

/-- A number of the unit interval, or none at all. -/
def InUnit (word : Float) : Prop :=
  word.isNaN = true ∨ 0 ≤ word ∧ word ≤ 1

theorem clipped_in_unit {word moved : Float} (clipped : Clipped word moved) : InUnit moved := by
  cases clipped with
  | undefined noNumber => exact Or.inl noNumber
  | raised => exact Or.inr ⟨LawfulCounter.zero_le_zero, zero_le_one⟩
  | lowered => exact Or.inr ⟨zero_le_one, by decide +kernel⟩
  | kept above below => exact Or.inr ⟨above, below⟩

theorem in_unit_within_tolerance {word tolerance : Float} (inUnit : InUnit word)
    (tolerant : 0 ≤ tolerance) : ¬ word < 0 - tolerance ∧ ¬ 1 + tolerance < word := by
  have floor := zero_sub_le tolerant
  have ceiling := le_add_self zero_le_one tolerant
  rw [not_exceeded_cases, not_exceeded_cases]
  rcases inUnit with noNumber | ⟨above, below⟩
  · exact ⟨Or.inr (Or.inl noNumber), Or.inl noNumber⟩
  · exact ⟨Or.inr (Or.inr (LawfulCounter.trans _ _ _ floor above)),
      Or.inr (Or.inr (LawfulCounter.trans _ _ _ below ceiling))⟩

/-! ## Distances -/

theorem magnitude_of_number {word : Float} (number : IsNumber word) :
    0 ≤ Quantity.magnitude word ∧ size (Quantity.magnitude word) = size word := by
  unfold Quantity.magnitude
  split_ifs with below
  · obtain ⟨-, -, negative⟩ := (lt_iff word 0).mp below
    have stored := unpack_stored word.toModel
    rw [upper_word_iff]
    change Upper (Float.Model.pack (UnpackedFloat.sub Format.binary64 (.zero .positive)
        word.toModel.unpack)).unpack ∧
      unpackedSize (Float.Model.pack (UnpackedFloat.sub Format.binary64 (.zero .positive)
        word.toModel.unpack)).unpack = unpackedSize word.toModel.unpack
    change extent word.toModel.unpack < 0 at negative
    generalize word.toModel.unpack = unpacked at *
    rcases unpacked with ⟨⟨⟩⟩ | _ | sign | ⟨⟨⟩, mantissa, exponent, positive⟩
    · simp only [UnpackedFloat.sub, unpack_pack_infinity]
      exact ⟨.infinity, rfl⟩
    · exact absurd negative (not_lt.mpr le_top)
    · exact absurd negative (lt_irrefl _)
    · exact absurd negative (lt_irrefl _)
    · have stored' : Stored (.finite (-Sign.negative) mantissa exponent positive) := stored
      simp only [UnpackedFloat.sub]
      rw [unpack_pack_stored _ stored']
      exact ⟨.finite mantissa exponent positive, rfl⟩
    · exact absurd negative (not_lt.mpr (extent_finite_positive _ _ positive).le)
  · exact ⟨zero_le_of_accepted ((is_number_iff word).mp number) below, rfl⟩

theorem size_one : size 1 = 1 := by
  have unpacked : (1 : Float).toModel.unpack = .finite .positive (2 ^ 52) (-52) (by decide) := by
    rfl
  unfold size
  rw [unpacked, unpackedSize, magnitude_pow]
  norm_num

end Binary64

namespace Relaxation

open Binary64

/-- The exact sum of the entries is one within a tolerance, up to the roundings of adding them up
and taking one from them. -/
def SumsToOne (tolerance : Float) (row : List Float) : Prop :=
  (row.map size).sum ≤ growth ^ row.length * (1 + growth * size tolerance) ∧
    1 ≤ growth ^ row.length * (row.map size).sum + growth * size tolerance

variable {r : Relaxation Float} {x y : Fractions Float} {tolerance : Float}

theorem sums_to_one [Summation Float] (ordered : Summation.InSomeOrder) {row : List Float}
    (inUnit : ∀ v ∈ row, InUnit v) (defined : ∀ v ∈ row, v.isNaN = false)
    (unexceeded : ¬ tolerance < Quantity.magnitude (Summation.total row - 1))
    (tolerant : 0 ≤ tolerance) : SumsToOne tolerance row := by
  have upper : ∀ summand ∈ row.map Summand.word, summand.IsUpper := by
    intro summand member
    obtain ⟨v, entry, rfl⟩ := List.mem_map.mp member
    exact ((inUnit v entry).resolve_left (Bool.eq_false_iff.mp (defined v entry))).1
  obtain ⟨above, near⟩ := accumulated_near (ordered.total row) upper
  have exact : ((row.map Summand.word).map Summand.size).sum = (row.map size).sum := by
    rw [List.map_map]
    rfl
  have slack : productSlack (row.map Summand.word) = 0 := by
    simp [productSlack, List.countP_map, Function.comp_def, Summand.isProduct]
  rw [exact, slack, List.length_map] at near
  have one : (0 : Float) ≤ 1 := zero_le_one
  have number : IsNumber (Summation.total row - 1) :=
    sub_is_number (is_number_of_zero_le above) (is_number_of_zero_le one) (Or.inr rfl)
  obtain ⟨distanceAbove, distance⟩ := magnitude_of_number number
  have within := (not_exceeded_iff (is_number_of_zero_le distanceAbove)
    (is_number_of_zero_le tolerant)).mp unexceeded
  have bounded := size_le distanceAbove within
  rw [distance] at bounded
  obtain ⟨total, total'⟩ := sub_spans above one rfl
  rw [size_one] at total total'
  constructor
  · calc (row.map size).sum
        ≤ growth ^ row.length * (size (Summation.total row) + 0) := near.above
      _ ≤ growth ^ row.length * (1 + growth * size tolerance) := by
          rw [add_zero]
          gcongr
          exact total.trans (by gcongr)
  · by_cases infinite : size (Summation.total row) = ⊤
    · have beyond : 1 + growth * size tolerance = ⊤ :=
        top_le_iff.mp (infinite ▸ total.trans (by gcongr))
      have loose := (ENNReal.add_eq_top.mp beyond).resolve_left ENNReal.one_ne_top
      rw [loose, add_top]
      exact le_top
    · calc 1 ≤ size (Summation.total row) + growth * size (Summation.total row - 1) := total'
        _ ≤ growth ^ row.length * (row.map size).sum + growth * size tolerance := by
            have counted := near.below infinite
            rw [add_zero] at counted
            gcongr

noncomputable def exactLoad (r : Relaxation Float) (y : Fractions Float) (node : Nat)
    (d : Dimension) : ENNReal :=
  ((Summation.loadTerms y.rows r.requirements node d).map fun (share, need) =>
    size share * size need).sum

/-- The exact load of a node keeps its capacity within a tolerance, up to the roundings of forming
the products, adding them up and adding the tolerance to the capacity. -/
def KeepsCapacity (r : Relaxation Float) (tolerance : Float) (y : Fractions Float) (node : Nat)
    (d : Dimension) : Prop :=
  r.exactLoad y node d ≤ growth ^ (r.serviceCount + 1) *
    (size (r.capacity node d) + size tolerance + r.serviceCount * least)

/-- No product of a share and a requirement is undefined. One is where the share is no number, and
where nothing is shared out of an infinite requirement. -/
def LoadDefined (r : Relaxation Float) (y : Fractions Float) (node : Nat) (d : Dimension) : Prop :=
  ∀ term ∈ Summation.loadTerms y.rows r.requirements node d, (term.1 * term.2).isNaN = false

theorem load_summands_upper (inUnit : ∀ row ∈ y.rows, ∀ v ∈ row, InUnit v)
    (requirements : ∀ need ∈ r.requirements, need.NotNegative) {node : Nat} {d : Dimension}
    (defined : r.LoadDefined y node d) :
    ∀ summand ∈ Summation.loadSummands y.rows r.requirements node d, summand.IsUpper := by
  intro summand member
  obtain ⟨term, listed, rfl⟩ := List.mem_map.mp member
  have product := defined term listed
  have factors := mt mul_is_nan (Bool.eq_false_iff.mp product)
  obtain ⟨shareNumber, needNumber⟩ := not_or.mp factors
  obtain ⟨⟨row, needs⟩, zipped, rfl⟩ := List.mem_map.mp listed
  obtain ⟨rowListed, needsListed⟩ := List.of_mem_zip zipped
  have absent : InUnit 0 := Or.inr ⟨LawfulCounter.zero_le_zero, zero_le_one⟩
  have share := at_every_position InUnit (inUnit row rowListed) absent node
  have notBelow := (Resources.not_negative_iff needs).mp (requirements needs needsListed) d
  exact ⟨(share.resolve_left shareNumber).1,
    zero_le_of_accepted (Bool.eq_false_iff.mpr needNumber) notBelow, product⟩

theorem capacity_accepted (capacities : ∀ c ∈ r.capacities, c.NotNegative) (node : Nat)
    (d : Dimension) : ¬ r.capacity node d < 0 := by
  apply at_every_position fun c : Resources Float => ¬ c.get d < 0
  · exact fun c listed => (Resources.not_negative_iff c).mp (capacities c listed) d
  · rw [Resources.get_zero]
    exact LawfulCounter.not_below 0 LawfulCounter.zero_le_zero

theorem exact_load_eq (r : Relaxation Float) (y : Fractions Float) (node : Nat) (d : Dimension) :
    ((Summation.loadSummands y.rows r.requirements node d).map Summand.size).sum =
      r.exactLoad y node d := by
  unfold Summation.loadSummands exactLoad
  rw [List.map_map]
  rfl

theorem load_slack (r : Relaxation Float) (y : Fractions Float) (node : Nat) (d : Dimension) :
    productSlack (Summation.loadSummands y.rows r.requirements node d) =
      (Summation.loadSummands y.rows r.requirements node d).length * least := by
  simp [productSlack, Summation.loadSummands, List.countP_map, Function.comp_def,
    Summand.isProduct]

theorem keeps_capacity [Summation Float] (ordered : Summation.InSomeOrder)
    (inUnit : ∀ row ∈ y.rows, ∀ v ∈ row, InUnit v)
    (requirements : ∀ need ∈ r.requirements, need.NotNegative)
    (capacities : ∀ c ∈ r.capacities, c.NotNegative) (services : y.rows.length = r.serviceCount)
    {node : Nat} {d : Dimension} (tolerant : 0 ≤ tolerance)
    (defined : r.LoadDefined y node d)
    (bounded : (r.capacity node d + tolerance).isFinite = true)
    (unexceeded : ¬ r.capacity node d + tolerance < r.loadOn y node d) :
    r.KeepsCapacity tolerance y node d := by
  obtain ⟨above, near⟩ := accumulated_near (ordered.load y.rows r.requirements node d)
    (load_summands_upper inUnit requirements defined)
  have boundNumber := is_number_of_finite bounded
  have capacityAbove : 0 ≤ r.capacity node d := by
    apply zero_le_of_accepted _ (capacity_accepted capacities node d)
    rw [Bool.eq_false_iff]
    exact fun lost => (is_nan_iff _).mp (add_is_nan (Or.inl lost)) boundNumber
  have bound := (near_add capacityAbove tolerant).below (size_ne_top bounded)
  rw [pow_one, add_zero] at bound
  have within := (not_exceeded_iff (is_number_of_zero_le above) boundNumber).mp unexceeded
  have count : (Summation.loadSummands y.rows r.requirements node d).length ≤ r.serviceCount := by
    simp [Summation.loadSummands, Summation.loadTerms, services]
  have slack : (productSlack (Summation.loadSummands y.rows r.requirements node d)) ≤
      r.serviceCount * least := by
    rw [load_slack]
    gcongr
  have counted := (near.weaken count slack).above
  rw [exact_load_eq] at counted
  calc r.exactLoad y node d
      ≤ growth ^ r.serviceCount * (size (r.loadOn y node d) + r.serviceCount * least) := counted
    _ ≤ growth ^ r.serviceCount * (growth * (size (r.capacity node d) + size tolerance) +
          growth * (r.serviceCount * least)) := by
        refine mul_le_mul' le_rfl (add_le_add ?_ ?_)
        · exact (size_le above within).trans bound
        · exact le_mul_of_one_le_left' one_le_growth
    _ = growth ^ (r.serviceCount + 1) *
          (size (r.capacity node d) + size tolerance + r.serviceCount * least) := by ring

/-! ## What the check passes -/

/-- What is known of an assignment that is let through, and of the one that it was clipped from. A
row with an entry that is no number keeps no bound, and neither does a load with a product that is
none or with a bound that is beyond the numbers of the format. -/
structure LetThrough (r : Relaxation Float) (tolerance : Float) (x y : Fractions Float) : Prop where
  services : x.rows.length = r.serviceCount
  nodes : x.columns = r.nodeCount ∧ y.columns = r.nodeCount
  entries : List.Forall₂ (List.Forall₂ Clipped) x.rows y.rows
  rowTotals : ∀ row ∈ y.rows, (∀ v ∈ row, v.isNaN = false) → SumsToOne tolerance row
  loads : ∀ node < r.nodeCount, ∀ d, r.LoadDefined y node d →
    (r.capacity node d + tolerance).isFinite = true → r.KeepsCapacity tolerance y node d

def HasFullLine (r : Relaxation Float) (y : Fractions Float) : Prop :=
  (∃ row ∈ y.rows, ∀ v ∈ row, v.isNaN = false) ∨
    ∃ node < r.nodeCount, ∀ pair ∈ y.rows.zip r.requirements,
      (pair.1.getD node 0).isNaN = false

theorem clipped_entries (x : Fractions Float) :
    List.Forall₂ (List.Forall₂ Clipped) x.rows (x.map Quantity.clipToUnit).rows := by
  have entries : ∀ row : List Float, List.Forall₂ Clipped row (row.map Quantity.clipToUnit) := by
    intro row
    rw [List.forall₂_map_right_iff, List.forall₂_same]
    exact fun v _ => (clipped_iff v _).mp rfl
  rw [Fractions.map, List.forall₂_map_right_iff, List.forall₂_same]
  exact fun row _ => entries row

theorem clipped_rows_in_unit (clipped : x.map Quantity.clipToUnit = y) :
    ∀ row ∈ y.rows, ∀ v ∈ row, InUnit v := by
  subst clipped
  intro row member v entry
  obtain ⟨before, -, rfl⟩ := List.mem_map.mp member
  obtain ⟨word, -, rfl⟩ := List.mem_map.mp entry
  exact clipped_in_unit ((clipped_iff word _).mp rfl)

/-- Past the end of a row there is a zero, before clipping and after it. -/
theorem clipped_entry (row : List Float) (node : Nat) :
    (row.map Quantity.clipToUnit).getD node 0 = Quantity.clipToUnit (row.getD node 0) := by
  have zero : Quantity.clipToUnit (0 : Float) = 0 :=
    (clipped_iff 0 0).mpr (.kept LawfulCounter.zero_le_zero zero_le_one)
  have entries := List.getD_map row (0 : Float) Quantity.clipToUnit (n := node)
  rwa [zero] at entries

theorem clipped_is_nan {v : Float} (noNumber : v.isNaN = true) :
    (Quantity.clipToUnit v).isNaN = true := by
  rw [(clipped_iff v v).mpr (.undefined noNumber)]
  exact noNumber

section

variable [Summation Float]

theorem let_through (ordered : Summation.InSomeOrder)
    (requirements : ∀ need ∈ r.requirements, need.NotNegative)
    (capacities : ∀ c ∈ r.capacities, c.NotNegative) (tolerant : 0 ≤ tolerance)
    (returned : r.finalize x tolerance = .ok y) : r.LetThrough tolerance x y := by
  obtain ⟨clipped, unviolated⟩ := finalize_ok_iff.mp returned
  have inUnit := clipped_rows_in_unit clipped
  constructor
  · rw [← unviolated.services, ← clipped, Fractions.map, List.length_map]
  · exact ⟨(congrArg Fractions.columns clipped).trans unviolated.nodes, unviolated.nodes⟩
  · exact clipped ▸ clipped_entries x
  · intro row member defined
    exact sums_to_one ordered (inUnit row member) defined (unviolated.rowTotals row member) tolerant
  · intro node listed d defined bounded
    exact keeps_capacity ordered inUnit requirements capacities unviolated.services tolerant defined
      bounded (unviolated.loads node listed d)

theorem undefined_row_unexceeded (ordered : Summation.InSomeOrder) {row : List Float}
    (lost : ∃ v ∈ row, v.isNaN = true) :
    ¬ tolerance < Quantity.magnitude (Summation.total row - 1) := by
  obtain ⟨v, entry, noNumber⟩ := lost
  have total : (Summation.total row).isNaN = true :=
    accumulated_is_nan (ordered.total row) ⟨.word v, List.mem_map_of_mem entry, noNumber⟩
  have gap := sub_is_nan total 1
  have distance : (Quantity.magnitude (Summation.total row - 1)).isNaN = true := by
    unfold Quantity.magnitude
    rwa [if_neg (not_below_zero (Or.inl gap))]
  exact (not_exceeded_cases _ _).mpr (Or.inl distance)

theorem undefined_load_unexceeded (ordered : Summation.InSomeOrder) {node : Nat} (d : Dimension)
    (lost : ∃ pair ∈ y.rows.zip r.requirements, (pair.1.getD node 0).isNaN = true) :
    ¬ r.capacity node d + tolerance < r.loadOn y node d := by
  obtain ⟨⟨row, needs⟩, zipped, noNumber⟩ := lost
  have load : (r.loadOn y node d).isNaN = true := by
    apply accumulated_is_nan (ordered.load y.rows r.requirements node d)
    refine ⟨.product (row.getD node 0) (needs.get d), ?_, mul_is_nan (Or.inl noNumber)⟩
    exact List.mem_map_of_mem (List.mem_map_of_mem zipped)
  exact (not_exceeded_cases _ _).mpr (Or.inl load)

theorem refused_for_full_line (ordered : Summation.InSomeOrder) (tolerant : 0 ≤ tolerance)
    {fault : Fault Float} (refused : r.finalize x tolerance = .error fault)
    (services : x.rows.length = r.serviceCount) (nodes : x.columns = r.nodeCount) :
    r.HasFullLine x := by
  by_contra none
  unfold HasFullLine at none
  push Not at none
  obtain ⟨noRow, noColumn⟩ := none
  have passed : r.finalize x tolerance = .ok (x.map Quantity.clipToUnit) := by
    refine finalize_ok_iff.mpr ⟨rfl, ?_⟩
    constructor
    · rw [← services, Fractions.map, List.length_map]
    · exact nodes
    · intro row member v entry
      exact in_unit_within_tolerance (clipped_rows_in_unit rfl row member v entry) tolerant
    · intro row member
      apply undefined_row_unexceeded ordered
      obtain ⟨before, listed, rfl⟩ := List.mem_map.mp member
      obtain ⟨v, entry, noNumber⟩ := noRow before listed
      rw [ne_eq, Bool.not_eq_false] at noNumber
      exact ⟨_, List.mem_map_of_mem entry, clipped_is_nan noNumber⟩
    · intro node listed d
      apply undefined_load_unexceeded ordered
      obtain ⟨⟨before, needs⟩, paired, noNumber⟩ := noColumn node listed
      rw [ne_eq, Bool.not_eq_false] at noNumber
      refine ⟨(before.map Quantity.clipToUnit, needs), ?_, ?_⟩
      · rw [Fractions.map, List.zip_map_left]
        exact List.mem_map_of_mem paired
      · rw [clipped_entry]
        exact clipped_is_nan noNumber
  rw [passed] at refused
  cases refused

/-- What is let through breaks a bound only where an entry is no number, however far out the entries
were that it was clipped from, and an assignment of the right shape is refused only over a row or a
column of numbers. -/
theorem fractions_valid_but_for_undefined_entries (ordered : Summation.InSomeOrder)
    (r : Relaxation Float) (x : Fractions Float) (tolerance : Float) (tolerant : 0 ≤ tolerance)
    (requirements : ∀ need ∈ r.requirements, need.NotNegative)
    (capacities : ∀ c ∈ r.capacities, c.NotNegative) :
    (∀ y, r.finalize x tolerance = .ok y → r.LetThrough tolerance x y) ∧
      ∀ fault, r.finalize x tolerance = .error fault → fault.kind = .solverFailure ∧
        (x.rows.length = r.serviceCount → x.columns = r.nodeCount → r.HasFullLine x) := by
  constructor
  · intro y returned
    exact let_through ordered requirements capacities tolerant returned
  · intro fault refused
    exact ⟨finalize_fault refused, refused_for_full_line ordered tolerant refused⟩

end

def roomyPair : Relaxation Float where
  nodeNames := ["a", "b"]
  capacities := [⟨9, 9, 0, 0⟩, ⟨9, 9, 0, 0⟩]
  serviceNames := ["s", "t"]
  requirements := [⟨1, 1, 0, 0⟩, ⟨1, 1, 0, 0⟩]
  costs := [1, 1]

def driftedFractions : Fractions Float :=
  ⟨2, [[1.5, -0.5], [0.25, 0.75]]⟩

theorem drifted_fractions_become_valid :
    roomyPair.LetThrough 0 driftedFractions (driftedFractions.map Quantity.clipToUnit) := by
  obtain ⟨through, -⟩ := fractions_valid_but_for_undefined_entries
    Summation.running_in_some_order roomyPair driftedFractions 0 LawfulCounter.zero_le_zero
    (by unfold Resources.NotNegative; decide +kernel)
    (by unfold Resources.NotNegative; decide +kernel)
  exact through _ (finalize_ok_iff.mpr ⟨rfl, violations_nil_iff.mp (by decide +kernel)⟩)

def wildFractions : Fractions Float :=
  ⟨2, [[2, -1], [0 / 0, 1]]⟩

/-- Entries far out of the unit interval are no reason to refuse, and neither is a row without a
sum. -/
theorem wild_fractions_let_through :
    ∃ y, roomyPair.finalize wildFractions 0 = .ok y ∧
      (∃ row ∈ wildFractions.rows, (∃ v ∈ row, 1 + 0 < v) ∧ ∃ v ∈ row, v < 0 - 0) ∧
      (∃ row ∈ y.rows, (∃ v ∈ row, ¬ 0 ≤ v) ∧
        ¬ Quantity.magnitude (Summation.total row - 1) ≤ 0) ∧
      ¬ roomyPair.loadOn y 0 .storage ≤ roomyPair.capacity 0 .storage + 0 := by
  refine ⟨wildFractions.map Quantity.clipToUnit, ?_, ?_, ?_, ?_⟩
  · exact finalize_ok_iff.mpr ⟨rfl, violations_nil_iff.mp (by decide +kernel)⟩
  · exact ⟨[2, -1], List.mem_cons_self, by decide +kernel, by decide +kernel⟩
  · refine ⟨[Quantity.clipToUnit (0 / 0), Quantity.clipToUnit 1],
      List.mem_cons_of_mem _ List.mem_cons_self, by decide +kernel, by decide +kernel⟩
  · decide +kernel

end Relaxation
end EdgePlacement
