import EdgePlacement.Network.PathSearch
import EdgePlacement.Network.Topology
import EdgePlacement.Text.Quoted

/-!
# Paths through a topology

Between two nodes only the preferred link carries traffic, and a link from a node to itself never
does. A path is chosen by its latency or by its count of links; of the paths that tie with the best
one, the path wins whose sequence of node names comes first.
-/

namespace EdgePlacement

open EdgePlacement.Text

inductive PathWeight where
  | latency
  | hops
  deriving DecidableEq

namespace PathWeight

def all : List PathWeight := [latency, hops]

def name : PathWeight → String
  | latency => "latency"
  | hops => "hops"

def ofName? (name : String) : Option PathWeight :=
  all.find? fun w => w.name = name

end PathWeight

namespace Topology

variable {α : Type} [Quantity α]

def linksBetween (t : Topology α) (a b : String) : List (Link α) :=
  t.links.filter fun l => !l.isLoop && l.joins a b

def preferredLink? (t : Topology α) (a b : String) : Option (Link α) :=
  match t.linksBetween a b with
  | [] => none
  | first :: rest => some (rest.foldl (fun best l => if best.keptOver l then best else l) first)

def neighbourNames (t : Topology α) (name : String) : List String :=
  (sortNames t.nodeNames).filter fun other => (t.preferredLink? name other).isSome

def neighbours (t : Topology α) (name : String) : Except (Fault α) (List String) :=
  if t.hasNode name then .ok (t.neighbourNames name) else .error (.unknownNeighbourhood name)

def routingGraph {κ : Type} (t : Topology α) (weigh : Link α → κ) : Graph κ :=
  let names := sortNames t.nodeNames
  { vertices := names
    arcs := names.flatMap fun a => names.filterMap fun b =>
      (t.preferredLink? a b).map fun l => ⟨a, b, weigh l⟩ }

def latencyRule (t : Topology α) : CostRule α where
  start := 0
  add := (· + ·)
  less a b := decide (a < b)
  tied := Quantity.tied t.tieTolerance

def hopGraph (t : Topology α) : Graph Nat :=
  t.routingGraph fun _ => 1

def latencyGraph (t : Topology α) : Graph α :=
  t.routingGraph (·.latency)

def fewestHops? (t : Topology α) (a b : String) : Option (List String) :=
  hopRule.leastPath? t.hopGraph a b

/-- The path by latency, unless a latency compares with nothing. -/
def leastLatency? (t : Topology α) (a b : String) : Option (List String) :=
  if t.latencyGraph.arcs.all fun arc => arc.cost == arc.cost then
    t.latencyRule.leastPath? t.latencyGraph a b
  else none

variable [PathChoice α]

/-- Whether there is a path at all is settled first. A tolerance below zero is met only when a
second path has to be compared. -/
def namePath? (t : Topology α) (a b : String) : PathWeight → Except (Fault α) (Option (List String))
  | .hops => .ok (t.fewestHops? a b)
  | .latency =>
    match t.fewestHops? a b, t.leastLatency? a b with
    | none, _ => .ok none
    | some _, some path =>
      if t.tieTolerance < 0 && hopRule.hasOtherPath t.hopGraph a b path then
        .error .negativeTieTolerance
      else .ok (some path)
    | some _, none =>
      match PathChoice.vertices? t.latencyGraph a b with
      | some path => .ok (some path)
      | none => .error .unorderedPaths

def linksAlong (t : Topology α) (path : List String) : List (Link α) :=
  (path.zip path.tail).filterMap fun (a, b) => t.preferredLink? a b

/-- The links of the best path; no links from a node to itself, and none at all when there is no
path. -/
def findPath (t : Topology α) (a b : String) (weight : String) :
    Except (Fault α) (Option (List (Link α))) :=
  match PathWeight.ofName? weight with
  | none => .error (.unknownPathWeight weight)
  | some weight =>
    if !(t.hasNode a && t.hasNode b) then .error (.unknownPathEnds a b)
    else if a = b then .ok (some [])
    else (t.namePath? a b weight).map fun path => path.map t.linksAlong

end Topology
end EdgePlacement
