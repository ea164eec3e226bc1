import EdgePlacement.Network.Paths

/-!
# Routing graphs

A routing graph keeps one link for each pair of joined nodes. It is built from the links in the
order in which they were added, and may be kept for later queries: it knows its links by their ids,
so that a query reads their counters as they are by then.
-/

namespace EdgePlacement

structure RoutingGraph where
  vertices : List String
  /-- The ids of the links, one for each pair of joined nodes. -/
  chosen : List String
  deriving DecidableEq

namespace Topology

variable {α : Type} [Quantity α]

/-- A link that joins a new pair is kept beside the others, and one that joins a pair again takes
the place of the link kept so far, unless that one is preferred. A link from a node to itself is
passed over. -/
def offerLink (kept : List (Link α)) (offer : Link α) : List (Link α) :=
  if offer.isLoop then kept
  else
    match kept.find? fun best => best.joins offer.first offer.second with
    | none => kept ++ [offer]
    | some best =>
      if best.keptOver offer then kept
      else kept.map fun l => if l.joins offer.first offer.second then offer else l

def keptLinks (t : Topology α) : List (Link α) :=
  t.links.foldl offerLink []

def routing (t : Topology α) : RoutingGraph :=
  ⟨t.nodeNames, t.keptLinks.map (·.id)⟩

/-- The nodes and links of a topology that a routing graph knows of. -/
def seenBy (t : Topology α) (g : RoutingGraph) : Topology α :=
  { t with
    nodes := t.nodes.filter fun n => g.vertices.contains n.name
    links := g.chosen.filterMap t.link? }

end Topology
end EdgePlacement
