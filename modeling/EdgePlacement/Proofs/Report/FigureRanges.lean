import Mathlib.Algebra.Order.BigOperators.Group.List
import Mathlib.Algebra.Order.Field.Basic
import Mathlib.Tactic.NormNum.OfScientific
import Mathlib.Tactic.Positivity
import EdgePlacement.Proofs.Capacity
import EdgePlacement.Proofs.Placement.Loads
import EdgePlacement.Proofs.Relaxation.Rows
import EdgePlacement.Proofs.Report.Divisions

/-!
# The range of the figures in a report

As long as every counter is between zero and its capacity, every share in a report is one between
nothing and all, and so is every mean of shares and every share of sums. A node, a topology or a
placement with nothing to share makes no exception: the figures do not divide by what it lacks.
-/

namespace EdgePlacement

set_option autoImplicit false

/-! ## Shares and means -/

theorem Quantity.of_nat_eq_cast (n : Nat) : (Quantity.ofNat n : Rat) = n := by
  change Rat.ofScientific n false 0 = n
  rw [Rat.ofScientific_false_def, pow_zero, mul_one]

theorem percentage_eq (part whole : Rat) :
    percentage part whole = if 0 < whole then part / whole * 100 else 0 := by
  have hundred : (100.0 : Rat) = 100 := by norm_num
  rw [← hundred]
  rfl

theorem percentage_in_range {part whole : Rat} (above : 0 ≤ part) (below : part ≤ whole) :
    0 ≤ percentage part whole ∧ percentage part whole ≤ 100 := by
  rw [percentage_eq]
  split_ifs with positive
  · have ratioAbove : 0 ≤ part / whole := div_nonneg above positive.le
    have ratioBelow : part / whole ≤ 1 := (div_le_one positive).mpr below
    constructor <;> linarith
  · norm_num

theorem sum_in_range {values : List Rat} {high : Rat}
    (bounds : ∀ v ∈ values, 0 ≤ v ∧ v ≤ high) :
    0 ≤ values.sum ∧ values.sum ≤ values.length * high := by
  constructor
  · exact List.sum_nonneg fun v listed => (bounds v listed).1
  · rw [← nsmul_eq_mul]
    exact List.sum_le_card_nsmul values high fun v listed => (bounds v listed).2

/-- A mean is between the bounds of its values, of which the lower is zero, so that it is also when
there are no values. -/
theorem mean_in_range {values : List Rat} {high : Rat} (highAbove : 0 ≤ high)
    (bounds : ∀ v ∈ values, 0 ≤ v ∧ v ≤ high) : 0 ≤ mean values ∧ mean values ≤ high := by
  obtain ⟨above, below⟩ := sum_in_range bounds
  unfold mean
  split_ifs with none
  · exact ⟨le_refl (0 : Rat), highAbove⟩
  · have counted : (0 : Rat) < values.length := by
      rw [Nat.cast_pos, List.length_pos_iff, Ne, ← List.isEmpty_iff]
      exact none
    rw [Quantity.total_eq_sum, Quantity.of_nat_eq_cast]
    change 0 ≤ values.sum / (values.length : Rat) ∧ values.sum / (values.length : Rat) ≤ high
    exact ⟨div_nonneg above counted.le, (div_le_iff₀ counted).mpr (mul_comm high _ ▸ below)⟩

/-! ## Single figures -/

theorem largest_in_range {values : List Rat} {high : Rat} (highAbove : 0 ≤ high)
    (bounds : ∀ v ∈ values, 0 ≤ v ∧ v ≤ high) :
    0 ≤ Quantity.largest values ∧ Quantity.largest values ≤ high := by
  cases values with
  | nil => exact ⟨le_refl (0 : Rat), highAbove⟩
  | cons first rest => exact bounds _ (largest_from_listed first rest)

theorem Node.WithinCapacity.load_in_range {n : Node Rat} (within : n.WithinCapacity) :
    0 ≤ n.load ∧ n.load ≤ 1 := by
  refine largest_in_range zero_le_one fun ratio listed => ?_
  obtain ⟨d, offered, rfl⟩ := List.mem_map.mp listed
  have positive : 0 < n.capacity.get d := of_decide_eq_true (List.mem_filter.mp offered).2
  exact ⟨div_nonneg (within.above d) positive.le, (div_le_one positive).mpr (within.below d)⟩

theorem Node.WithinCapacity.utilization_in_range {n : Node Rat} (within : n.WithinCapacity)
    (d : Dimension) : 0 ≤ n.utilization d ∧ n.utilization d ≤ 100 :=
  percentage_in_range (within.above d) (within.below d)

theorem Link.WithinCapacity.utilization_in_range {l : Link Rat} (within : l.WithinCapacity) :
    0 ≤ l.utilization ∧ l.utilization ≤ 100 :=
  percentage_in_range within.above within.below

theorem frame_rate_in_range (latency : Rat) : 0 ≤ frameRate latency ∧ frameRate latency ≤ 60 := by
  have sixty : (60.0 : Rat) = 60 := by norm_num
  have rate : frameRate latency =
      if 0 < latency then if 1000.0 / latency < 60 then 1000.0 / latency else 60 else 0 := by
    rw [← sixty]
    rfl
  rw [rate]
  split_ifs with positive slow
  · exact ⟨by positivity, slow.le⟩
  · norm_num
  · norm_num

/-! ## Frames -/

section Frames

variable {α β : Type}

def Frame.under (frame : Frame α) (heading : String) : List (Cell α) :=
  frame.rows.flatMap fun row =>
    ((frame.columns.zip row).filter fun entry => entry.1 = heading).map (·.2)

theorem under_of_rows {columns : List String} {items : List β} {cells : β → List (Cell α)}
    {shown : β → Cell α} {heading : String}
    (single : ∀ item, ((columns.zip (cells item)).filter fun entry => entry.1 = heading).map (·.2) =
      [shown item]) :
    Frame.under ⟨columns, items.map cells⟩ heading = items.map shown := by
  unfold Frame.under
  simp only [List.flatMap_map, single]
  exact List.map_eq_flatMap.symm

variable [Quantity α]

theorem node_frame_under {t : Topology α} (some : t.nodes.isEmpty = false) (d : Dimension) :
    t.nodeFrame.under (utilizationColumn d) =
      t.nodes.map fun n => Cell.quantity (n.utilization d) := by
  unfold Topology.nodeFrame
  rw [some]
  refine under_of_rows fun n => ?_
  cases d <;> simp [nodeColumns, Node.cells, Dimension.all, utilizationColumn, Dimension.name]

theorem link_frame_under (t : Topology α) :
    t.linkFrame.under "util_pct" = t.links.map fun l => Cell.quantity l.utilization := by
  refine under_of_rows fun l => ?_
  simp [Link.cells]

end Frames

def IsPercentageHeading (heading : String) : Prop :=
  "util_pct".toList <:+ heading.toList

instance (heading : String) : Decidable (IsPercentageHeading heading) :=
  inferInstanceAs (Decidable (_ <:+ _))

theorem node_percentage_headings : ∀ heading ∈ nodeColumns, IsPercentageHeading heading →
    ∃ d ∈ Dimension.all, heading = utilizationColumn d := by
  decide

theorem link_percentage_headings : ∀ heading ∈
    ["link", "a", "b", "used", "capacity", "latency", "util_pct"],
    IsPercentageHeading heading → heading = "util_pct" := by
  decide

def Frame.ShowsPercentages (frame : Frame Rat) (heading : String) : Prop :=
  ∃ shares : List Rat, frame.under heading = shares.map Cell.quantity ∧
    shares.length = frame.rows.length ∧ ∀ share ∈ shares, 0 ≤ share ∧ share ≤ 100

namespace Topology.WithinCapacity

variable {t : Topology Rat}

theorem node_frame_shows (within : t.WithinCapacity) {heading : String}
    (listed : heading ∈ t.nodeFrame.columns) (percentage : IsPercentageHeading heading) :
    t.nodeFrame.ShowsPercentages heading := by
  cases none : t.nodes.isEmpty with
  | true =>
      have columns : t.nodeFrame.columns = [] := if_pos none
      rw [columns] at listed
      cases listed
  | false =>
      have columns : t.nodeFrame.columns = nodeColumns := by
        unfold Topology.nodeFrame
        rw [none]
        rfl
      rw [columns] at listed
      obtain ⟨d, -, rfl⟩ := node_percentage_headings heading listed percentage
      refine ⟨t.nodes.map (·.utilization d), ?_, ?_, ?_⟩
      · rw [node_frame_under none, List.map_map]
        rfl
      · rw [Topology.nodeFrame, List.length_map, List.length_map]
      · intro share member
        obtain ⟨n, stored, rfl⟩ := List.mem_map.mp member
        exact (within.nodes n stored).utilization_in_range d

theorem link_frame_shows (within : t.WithinCapacity) {heading : String}
    (listed : heading ∈ t.linkFrame.columns) (percentage : IsPercentageHeading heading) :
    t.linkFrame.ShowsPercentages heading := by
  obtain rfl := link_percentage_headings heading listed percentage
  refine ⟨t.links.map (·.utilization), ?_, ?_, ?_⟩
  · rw [link_frame_under, List.map_map]
    rfl
  · rw [Topology.linkFrame, List.length_map, List.length_map]
  · intro share member
    obtain ⟨l, stored, rfl⟩ := List.mem_map.mp member
    exact (within.links l stored).utilization_in_range

/-! ## Figures for the system -/

theorem edge_utilization_in_range (within : t.WithinCapacity) (p : Placement Rat) :
    0 ≤ (SystemMetrics.measure t p).edgeUtilization ∧
      (SystemMetrics.measure t p).edgeUtilization ≤ 100 := by
  refine mean_in_range (by norm_num) fun share listed => ?_
  obtain ⟨n, chosen, rfl⟩ := List.mem_map.mp listed
  exact (within.nodes n (List.mem_of_mem_filter chosen)).utilization_in_range .compute

theorem bandwidth_use_in_range (within : t.WithinCapacity) (p : Placement Rat) :
    0 ≤ (SystemMetrics.measure t p).bandwidthUse ∧
      (SystemMetrics.measure t p).bandwidthUse ≤ 100 := by
  refine percentage_in_range ?_ ?_ <;> rw [Quantity.total_eq_sum]
  · refine List.sum_nonneg fun used listed => ?_
    obtain ⟨l, stored, rfl⟩ := List.mem_map.mp listed
    exact (within.links l stored).above
  · rw [Quantity.total_eq_sum]
    exact List.sum_le_sum fun l stored => (within.links l stored).below

/-- Edge utilization takes at most a fifth, and the use of bandwidth at most a tenth of it. -/
theorem scalability_in_range (within : t.WithinCapacity) (p : Placement Rat) :
    70 ≤ (SystemMetrics.measure t p).scalability ∧
      (SystemMetrics.measure t p).scalability ≤ 100 := by
  obtain ⟨edgeAbove, edgeBelow⟩ := within.edge_utilization_in_range p
  obtain ⟨bandwidthAbove, bandwidthBelow⟩ := within.bandwidth_use_in_range p
  have formula : (SystemMetrics.measure t p).scalability =
      100 - ((SystemMetrics.measure t p).edgeUtilization * (1 / 5) +
        (SystemMetrics.measure t p).bandwidthUse * (1 / 10)) := by
    have hundred : (100.0 : Rat) = 100 := by norm_num
    have fifth : (0.2 : Rat) = 1 / 5 := by norm_num
    have tenth : (0.1 : Rat) = 1 / 10 := by norm_num
    rw [← hundred, ← fifth, ← tenth]
    rfl
  rw [formula]
  constructor <;> linarith

end Topology.WithinCapacity

theorem PlacementSummary.services_of_nodes (nodes : List (Option String)) :
    (ofNodes nodes).services = nodes.length := by
  induction nodes with
  | nil => rfl
  | cons node rest ih =>
      unfold services ofNodes at ih ⊢
      simp only [List.countP_cons, List.length_cons] at ih ⊢
      rcases node with _ | name
      · simp only [Option.any_none, Option.isNone_none, if_true, Bool.false_eq_true, if_false]
        omega
      · cases cloud : isCloudName name <;>
          simp only [Option.any_some, Option.isNone_some, cloud, Bool.not_true, Bool.not_false,
            if_true, Bool.false_eq_true, if_false] <;> omega

theorem cloud_load_in_range (t : Topology Rat) (p : Placement Rat) :
    0 ≤ (SystemMetrics.measure t p).cloudLoad ∧ (SystemMetrics.measure t p).cloudLoad ≤ 100 := by
  have below : p.summary.cloud ≤ p.summary.services := by
    unfold PlacementSummary.services
    omega
  refine percentage_in_range ?_ ?_ <;> rw [Quantity.of_nat_eq_cast]
  · exact Nat.cast_nonneg _
  · rw [Quantity.of_nat_eq_cast]
    exact Nat.cast_le.mpr below

/-! ## All figures -/

structure FiguresInRange (t : Topology Rat) (p : Placement Rat) : Prop where
  loads : ∀ n ∈ t.nodes, 0 ≤ n.load ∧ n.load ≤ 1
  nodeShares : ∀ heading ∈ t.nodeFrame.columns, IsPercentageHeading heading →
    t.nodeFrame.ShowsPercentages heading
  linkShares : ∀ heading ∈ t.linkFrame.columns, IsPercentageHeading heading →
    t.linkFrame.ShowsPercentages heading
  edgeUtilization : 0 ≤ (SystemMetrics.measure t p).edgeUtilization ∧
    (SystemMetrics.measure t p).edgeUtilization ≤ 100
  cloudLoad : 0 ≤ (SystemMetrics.measure t p).cloudLoad ∧
    (SystemMetrics.measure t p).cloudLoad ≤ 100
  bandwidthUse : 0 ≤ (SystemMetrics.measure t p).bandwidthUse ∧
    (SystemMetrics.measure t p).bandwidthUse ≤ 100
  frameRate : 0 ≤ (SystemMetrics.measure t p).frameRate ∧
    (SystemMetrics.measure t p).frameRate ≤ 60
  scalability : 70 ≤ (SystemMetrics.measure t p).scalability ∧
    (SystemMetrics.measure t p).scalability ≤ 100
  services : p.summary.edge + p.summary.cloud + p.summary.unplaced = p.assignments.keys.length

/-- Whatever is done in place of a division by zero, be it to give some value or to stop, nothing of
it is seen in the figures. -/
def NeverDividesByZero (t : Topology Rat) (p : Placement Rat) : Prop :=
  ∀ (m : Type → Type) [Monad m] [LawfulMonad m] (divide : Rat → Rat → m Rat),
    (∀ part whole, whole ≠ 0 → divide part whole = pure (part / whole)) →
      (∀ n ∈ t.nodes, n.loadBy divide = pure n.load) ∧
      t.nodeFrameBy divide = pure t.nodeFrame ∧ t.linkFrameBy divide = pure t.linkFrame ∧
      SystemMetrics.measureBy divide t p = pure (SystemMetrics.measure t p)

theorem DividesShares.of_off_zero {m : Type → Type} [Monad m] {divide : Rat → Rat → m Rat}
    (offZero : ∀ part whole, whole ≠ 0 → divide part whole = pure (part / whole)) :
    DividesShares divide := by
  refine ⟨fun part whole positive => offZero part whole (ne_of_gt (α := Rat) positive), ?_⟩
  intro sum count counted
  refine offZero sum _ ?_
  rw [Quantity.of_nat_eq_cast]
  exact Nat.cast_ne_zero.mpr counted

/-- The figures of a report, whatever the placement and however little there is to be shared. -/
theorem figures_stay_in_range (t : Topology Rat) (p : Placement Rat) (within : t.WithinCapacity) :
    FiguresInRange t p ∧ NeverDividesByZero t p := by
  constructor
  · constructor
    case loads => exact fun n stored => (within.nodes n stored).load_in_range
    case nodeShares => exact fun heading => within.node_frame_shows
    case linkShares => exact fun heading => within.link_frame_shows
    case edgeUtilization => exact within.edge_utilization_in_range p
    case cloudLoad => exact cloud_load_in_range t p
    case bandwidthUse => exact within.bandwidth_use_in_range p
    case frameRate => exact frame_rate_in_range _
    case scalability => exact within.scalability_in_range p
    case services =>
      have counted := PlacementSummary.services_of_nodes p.assignments.values
      rw [OrderedMap.values, List.length_map] at counted
      rw [OrderedMap.keys, List.length_map]
      exact counted
  · intro m _ _ divide offZero
    have divides := DividesShares.of_off_zero offZero
    exact ⟨fun n _ => divides.load n, divides.node_frame t, divides.link_frame t,
      divides.measure t p⟩

def halfUsedTrio : Topology Rat where
  nodes := [⟨"edge1", ⟨100, 10, 10, 0⟩, ⟨50, 5, 0, 0⟩, ["a"]⟩,
    Node.fresh "edge2" ⟨100, 10, 10, 10⟩, ⟨"Cloud", 0, 0, ["b"]⟩]
  links := [⟨"near", "edge1", "edge2", 50, 2, 25⟩, ⟨"far", "edge2", "Cloud", 0, 8, 0⟩]
  canonical := [("edge1", "edge1"), ("edge2", "edge2"), ("cloud", "Cloud")]
  tieTolerance := Topology.usualTieTolerance

def spreadTrio : Placement Rat where
  assignments := ⟨[("a", some "edge1"), ("b", some "Cloud"), ("c", none)]⟩
  routes := ⟨[]⟩
  placementFailures := [⟨"c", PlacementFailure.noCapacity⟩]
  routingFailures := []

theorem half_used_trio_in_range : halfUsedTrio.WithinCapacity ∧
    FiguresInRange halfUsedTrio spreadTrio ∧ NeverDividesByZero halfUsedTrio spreadTrio := by
  have within : halfUsedTrio.WithinCapacity := by
    constructor
    · simp only [halfUsedTrio, List.forall_mem_cons, List.not_mem_nil, false_implies, implies_true,
        and_true]
      refine ⟨?_, ?_, ?_⟩ <;> constructor <;> intro d <;> cases d <;> decide
    · simp only [halfUsedTrio, List.forall_mem_cons, List.not_mem_nil, false_implies, implies_true,
        and_true]
      refine ⟨?_, ?_⟩ <;> constructor <;> decide
  exact ⟨within, figures_stay_in_range halfUsedTrio spreadTrio within⟩

example : SystemMetrics.measure halfUsedTrio spreadTrio =
    ⟨5, 25, 100 / 3, 50, 60, 90⟩ := by
  decide +kernel

end EdgePlacement
