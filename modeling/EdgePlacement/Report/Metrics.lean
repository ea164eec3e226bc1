import EdgePlacement.Network.Topology
import EdgePlacement.Placement.Result

/-!
# Figures about a placement

How far nodes and links are used, where the services went, and six figures for the system as a
whole. A share of nothing counts as zero, and so does the mean over nothing.
-/

namespace EdgePlacement

open EdgePlacement.Text

def occursIn (word : List Char) : List Char → Bool
  | [] => word.isEmpty
  | c :: rest => word.isPrefixOf (c :: rest) || occursIn word rest

def isCloudName (name : String) : Bool :=
  occursIn "cloud".toList (lowerCase name).toList

structure PlacementSummary where
  edge : Nat
  cloud : Nat
  unplaced : Nat
  deriving DecidableEq

namespace PlacementSummary

def ofNodes (nodes : List (Option String)) : PlacementSummary where
  edge := nodes.countP fun node => node.any fun name => !isCloudName name
  cloud := nodes.countP fun node => node.any isCloudName
  unplaced := nodes.countP Option.isNone

def services (s : PlacementSummary) : Nat :=
  s.edge + s.cloud + s.unplaced

def entries (s : PlacementSummary) : List (String × Nat) :=
  [("edge", s.edge), ("cloud", s.cloud), ("unplaced", s.unplaced)]

end PlacementSummary

variable {α : Type}

def Placement.summary (p : Placement α) : PlacementSummary :=
  PlacementSummary.ofNodes p.assignments.values

variable [Quantity α]

/-- Zero unless the whole is above zero. -/
def percentage (part whole : α) : α :=
  if 0 < whole then part / whole * 100.0 else 0

def mean (values : List α) : α :=
  if values.isEmpty then 0 else Quantity.total values / Quantity.ofNat values.length

def Node.utilization (n : Node α) (d : Dimension) : α :=
  percentage (n.usage.get d) (n.capacity.get d)

def Link.utilization (l : Link α) : α :=
  percentage l.used l.capacity

/-- Frames that can be shown in a second, up to sixty, when one takes the given time in
milliseconds. -/
def frameRate (latency : α) : α :=
  if 0 < latency then
    let rate := 1000.0 / latency
    if rate < 60.0 then rate else 60.0
  else 0

structure SystemMetrics (α : Type) where
  averageLatency : α
  edgeUtilization : α
  cloudLoad : α
  bandwidthUse : α
  frameRate : α
  scalability : α
  deriving DecidableEq

namespace SystemMetrics

/-- Edge utilization is the mean computing utilization of the nodes that are no cloud nodes. -/
def measure (t : Topology α) (p : Placement α) : SystemMetrics α :=
  let averageLatency := mean (t.links.map (·.latency))
  let edgeNodes := t.nodes.filter fun n => !isCloudName n.name
  let edgeUtilization := mean (edgeNodes.map fun n => n.utilization .compute)
  let bandwidthUse :=
    percentage (Quantity.total (t.links.map (·.used))) (Quantity.total (t.links.map (·.capacity)))
  { averageLatency := averageLatency
    edgeUtilization := edgeUtilization
    cloudLoad := percentage (Quantity.ofNat p.summary.cloud) (Quantity.ofNat p.summary.services)
    bandwidthUse := bandwidthUse
    frameRate := EdgePlacement.frameRate averageLatency
    scalability := 100.0 - (edgeUtilization * 0.2 + bandwidthUse * 0.1) }

def entries (m : SystemMetrics α) : List (String × α) := [
  ("avg_latency_ms", m.averageLatency),
  ("edge_utilization_pct", m.edgeUtilization),
  ("cloud_load_pct", m.cloudLoad),
  ("bw_efficiency_pct", m.bandwidthUse),
  ("ar_frame_rate_fps", m.frameRate),
  ("scalability_pct", m.scalability)]

end SystemMetrics
end EdgePlacement
