import EdgePlacement.Report.Metrics
import EdgePlacement.Table.Writing

/-!
# Frames of a report

Tables of the nodes, of the links and of the placement, ready to be written out.
-/

namespace EdgePlacement

def utilizationColumn (d : Dimension) : String :=
  d.name ++ "_util_pct"

def nodeColumns : List String :=
  ["node"] ++
    (Dimension.all.flatMap fun d => [d.name ++ "_used", d.name ++ "_cap", utilizationColumn d]) ++
    ["hosted"]

variable {α : Type}

def placementCells (service : String) (node : Option String) : List (Cell α) :=
  [.text service, (node.map Cell.text).getD .absent, .flag node.isSome]

def Placement.frame (p : Placement α) : Frame α where
  columns := ["service", "node", "placed"]
  rows := p.assignments.entries.map fun (service, node) => placementCells service node

variable [Quantity α]

def Node.cells (n : Node α) : List (Cell α) :=
  [.text n.name] ++
    (Dimension.all.flatMap fun d =>
      [.quantity (n.usage.get d), .quantity (n.capacity.get d), .quantity (n.utilization d)]) ++
    [.count n.hosted.length]

/-- Without nodes there are no columns either. -/
def Topology.nodeFrame (t : Topology α) : Frame α where
  columns := if t.nodes.isEmpty then [] else nodeColumns
  rows := t.nodes.map Node.cells

def Link.cells (l : Link α) : List (Cell α) := [
  .text l.id, .text l.first, .text l.second, .quantity l.used, .quantity l.capacity,
  .quantity l.latency, .quantity l.utilization]

def Topology.linkFrame (t : Topology α) : Frame α where
  columns := ["link", "a", "b", "used", "capacity", "latency", "util_pct"]
  rows := t.links.map Link.cells

end EdgePlacement
