import Mathlib.Tactic.SplitIfs
import EdgePlacement.Report.Frames

/-!
# The divisions behind a report

The figures of a report with every division made by a given operation, which may refuse. The
operation need not divide by everything: as long as it divides by what is above zero and by the
count of something, the figures are those of the report, whatever the quantities are and whatever
the operation does otherwise. No figure asks for any other division.
-/

namespace EdgePlacement

set_option autoImplicit false

variable {α : Type} [Quantity α] {m : Type → Type} [Monad m]

section Figures

variable (divide : α → α → m α)

def percentageBy (part whole : α) : m α :=
  if 0 < whole then do
    let ratio ← divide part whole
    return ratio * 100.0
  else return 0

def meanBy (values : List α) : m α :=
  if values.isEmpty then return 0
  else divide (Quantity.total values) (Quantity.ofNat values.length)

def frameRateBy (latency : α) : m α :=
  if 0 < latency then do
    let rate ← divide 1000.0 latency
    return if rate < 60.0 then rate else 60.0
  else return 0

def Node.loadBy (n : Node α) : m α := do
  let offered := Dimension.all.filter fun d => 0 < n.capacity.get d
  let ratios ← offered.mapM fun d => divide (n.usage.get d) (n.capacity.get d)
  return Quantity.largest ratios

def Node.utilizationBy (n : Node α) (d : Dimension) : m α :=
  percentageBy divide (n.usage.get d) (n.capacity.get d)

def Link.utilizationBy (l : Link α) : m α :=
  percentageBy divide l.used l.capacity

def SystemMetrics.measureBy (t : Topology α) (p : Placement α) : m (SystemMetrics α) := do
  let averageLatency ← meanBy divide (t.links.map (·.latency))
  let edgeNodes := t.nodes.filter fun n => !isCloudName n.name
  let utilizations ← edgeNodes.mapM fun n => n.utilizationBy divide .compute
  let edgeUtilization ← meanBy divide utilizations
  let cloudLoad ←
    percentageBy divide (Quantity.ofNat p.summary.cloud) (Quantity.ofNat p.summary.services)
  let bandwidthUse ← percentageBy divide (Quantity.total (t.links.map (·.used)))
    (Quantity.total (t.links.map (·.capacity)))
  let frameRate ← frameRateBy divide averageLatency
  return {
    averageLatency, edgeUtilization, cloudLoad, bandwidthUse, frameRate
    scalability := 100.0 - (edgeUtilization * 0.2 + bandwidthUse * 0.1) }

def Node.cellsBy (n : Node α) : m (List (Cell α)) := do
  let shares ← Dimension.all.mapM fun d => do
    let utilization ← n.utilizationBy divide d
    return [.quantity (n.usage.get d), .quantity (n.capacity.get d), .quantity utilization]
  return [.text n.name] ++ shares.flatten ++ [.count n.hosted.length]

def Topology.nodeFrameBy (t : Topology α) : m (Frame α) := do
  let rows ← t.nodes.mapM fun n => n.cellsBy divide
  return { columns := if t.nodes.isEmpty then [] else nodeColumns, rows }

def Link.cellsBy (l : Link α) : m (List (Cell α)) := do
  let utilization ← l.utilizationBy divide
  return [
    .text l.id, .text l.first, .text l.second, .quantity l.used, .quantity l.capacity,
    .quantity l.latency, .quantity utilization]

def Topology.linkFrameBy (t : Topology α) : m (Frame α) := do
  let rows ← t.links.mapM fun l => l.cellsBy divide
  return { columns := ["link", "a", "b", "used", "capacity", "latency", "util_pct"], rows }

end Figures

/-- The operation divides by whatever is above zero and by the count of something; what it does
with other divisors is left open. -/
structure DividesShares (divide : α → α → m α) : Prop where
  above : ∀ part whole, 0 < whole → divide part whole = pure (part / whole)
  counted : ∀ sum count, count ≠ 0 →
    divide sum (Quantity.ofNat count) = pure (sum / Quantity.ofNat count)

theorem map_returned {β γ : Type} [LawfulMonad m] {act : β → m γ} {value : β → γ}
    {items : List β} (returned : ∀ item ∈ items, act item = pure (value item)) :
    items.mapM act = pure (items.map value) := by
  induction items with
  | nil => exact List.mapM_nil
  | cons item rest ih =>
      have later := ih fun next listed => returned next (List.mem_cons_of_mem item listed)
      rw [List.mapM_cons, returned item List.mem_cons_self, pure_bind, later, pure_bind,
        List.map_cons]

namespace DividesShares

variable [LawfulMonad m] {divide : α → α → m α}

theorem percentage (divides : DividesShares divide) (part whole : α) :
    percentageBy divide part whole = pure (percentage part whole) := by
  unfold percentageBy EdgePlacement.percentage
  split_ifs with above
  · rw [divides.above part whole above, pure_bind]
  · rfl

omit [LawfulMonad m] in
theorem mean (divides : DividesShares divide) (values : List α) :
    meanBy divide values = pure (mean values) := by
  unfold meanBy EdgePlacement.mean
  split_ifs with none
  · rfl
  · have some : values.length ≠ 0 := by
      rwa [Ne, List.length_eq_zero_iff, ← List.isEmpty_iff]
    exact divides.counted _ _ some

theorem frame_rate (divides : DividesShares divide) (latency : α) :
    frameRateBy divide latency = pure (frameRate latency) := by
  unfold frameRateBy frameRate
  split_ifs with above
  · rw [divides.above _ latency above, pure_bind]
  · rfl

theorem node_utilization (divides : DividesShares divide) (n : Node α) (d : Dimension) :
    n.utilizationBy divide d = pure (n.utilization d) :=
  divides.percentage _ _

theorem link_utilization (divides : DividesShares divide) (l : Link α) :
    l.utilizationBy divide = pure l.utilization :=
  divides.percentage _ _

theorem load (divides : DividesShares divide) (n : Node α) : n.loadBy divide = pure n.load := by
  have ratios : ∀ d ∈ Dimension.all.filter fun d => 0 < n.capacity.get d,
      divide (n.usage.get d) (n.capacity.get d) = pure (n.usage.get d / n.capacity.get d) := by
    intro d offered
    exact divides.above _ _ (of_decide_eq_true (List.mem_filter.mp offered).2)
  unfold Node.loadBy
  dsimp only
  rw [map_returned ratios, pure_bind]
  rfl

theorem measure (divides : DividesShares divide) (t : Topology α) (p : Placement α) :
    SystemMetrics.measureBy divide t p = pure (SystemMetrics.measure t p) := by
  unfold SystemMetrics.measureBy
  simp only [divides.node_utilization, divides.percentage, divides.mean, divides.frame_rate,
    List.mapM_pure, pure_bind]
  rfl

theorem node_frame (divides : DividesShares divide) (t : Topology α) :
    t.nodeFrameBy divide = pure t.nodeFrame := by
  unfold Topology.nodeFrameBy Node.cellsBy
  simp only [divides.node_utilization, List.mapM_pure, pure_bind]
  rfl

theorem link_frame (divides : DividesShares divide) (t : Topology α) :
    t.linkFrameBy divide = pure t.linkFrame := by
  unfold Topology.linkFrameBy Link.cellsBy
  simp only [divides.link_utilization, List.mapM_pure, pure_bind]
  rfl

end DividesShares
end EdgePlacement
