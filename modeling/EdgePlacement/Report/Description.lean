import EdgePlacement.Report.FaultText

/-!
# Short descriptions

One line about a node, a link, a topology or an instance of the relaxation.
-/

namespace EdgePlacement

open EdgePlacement.Decimal

def Resources.describe (r : Resources Float) : String :=
  "(" ++ String.intercalate ", " (r.values.map numberText) ++ ")"

def Node.describe (n : Node Float) : String :=
  "<ResourceNode " ++ n.name ++ " usage=" ++ n.usage.describe ++ " cap=" ++
    n.capacity.describe ++ ">"

def Link.describe (l : Link Float) : String :=
  "<Link " ++ l.id ++ " " ++ l.first ++ "-" ++ l.second ++ " used=" ++ fixedText 2 l.used ++ "/" ++
    fixedText 2 l.capacity ++ " lat=" ++ numberText l.latency ++ ">"

def Topology.describe (t : Topology Float) : String :=
  "<Topology | nodes=" ++ countText t.nodes.length ++ " links=" ++ countText t.links.length ++ ">"

def Relaxation.describe (r : Relaxation Float) : String :=
  "<LPInstance | nodes=" ++ countText r.nodeCount ++ " services=" ++ countText r.serviceCount ++ ">"

end EdgePlacement
