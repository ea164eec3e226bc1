import EdgePlacement.Planner
import EdgePlacement.Report.Columns
import EdgePlacement.Report.FaultText
import EdgePlacement.Report.FractionRow
import EdgePlacement.Report.Frames

/-!
# The printed report

The fractions, the placement, the use of links and nodes, and the figures for the system, line by
line.
-/

namespace EdgePlacement

open EdgePlacement.Decimal EdgePlacement.Text

namespace Plan

def fractionLines (plan : Plan Float) : List String :=
  (plan.serviceNames.zip plan.fractions.rows).map fun (service, row) =>
    "  " ++ service ++ ": " ++ fractionRowText row

def placementLines (plan : Plan Float) : List String :=
  plan.placement.assignments.entries.map fun (service, node) =>
    "  " ++ service ++ " -> " ++ node.getD "NOT PLACED"

def unroutedLines (plan : Plan Float) : List String :=
  plan.placement.routingFailures.map fun failure =>
    "  [unrouted] demand " ++ wholeText failure.index ++ " " ++ failure.demand.source ++ "->" ++
      failure.demand.target ++ ": " ++ failure.reason

def summaryLines (plan : Plan Float) : List String :=
  let summary := plan.placement.summary
  [ "Services placed on Edge: " ++ countText summary.edge,
    "Services placed on Cloud: " ++ countText summary.cloud,
    "Services not placed: " ++ countText summary.unplaced]

def metricLines (plan : Plan Float) (t : Topology Float) : List String :=
  (SystemMetrics.measure t plan.placement).entries.map fun (name, value) =>
    "  " ++ name ++ ": " ++ fixedText 2 value

end Plan

def Link.heading (l : Link Float) : String :=
  "  " ++ l.id ++ " (" ++ l.first ++ "-" ++ l.second ++ "): "

def Link.usageLine (l : Link Float) : String :=
  l.heading ++ "used " ++ fixedText 2 l.used ++ " / cap " ++ fixedText 2 l.capacity

def Link.utilizationLine (l : Link Float) : String :=
  l.heading ++ fixedText 1 l.utilization ++ "%"

def Topology.utilizationLines (t : Topology Float) : List String :=
  let names := "node" :: t.nodes.map fun n => cellText n.name
  let shares := Dimension.all.map fun d =>
    utilizationColumn d :: t.nodes.map fun n => tenthsText (n.utilization d)
  columnLines (names :: shares)

def Plan.report (plan : Plan Float) (t : Topology Float) : List String :=
  ["LP fractional solution:"] ++ plan.fractionLines ++
    ["", "Final placement:"] ++ plan.placementLines ++
    ["", "Link usages:"] ++ t.links.map Link.usageLine ++ plan.unroutedLines ++
    ["", "=== Evaluation Metrics ==="] ++ plan.summaryLines ++
    ["", "Link utilization:"] ++ t.links.map Link.utilizationLine ++
    ["", "Resource utilization per node:"] ++ t.utilizationLines ++
    ["", "System-level metrics:"] ++ plan.metricLines t

def skippedLine (skipped : Nat) (byTable : List (String × Nat)) : String :=
  let counts := byTable.map fun (table, count) => quoted table ++ ": " ++ countText count
  "[WARN] " ++ countText skipped ++ " malformed record(s) skipped: \x7b" ++
    String.intercalate ", " counts ++ "\x7d"

def writtenLine (folder : String) : String :=
  "[INFO] Results written to " ++ folder

end EdgePlacement
