import EdgePlacement.OrderedMap
import EdgePlacement.Service

/-!
# Placements

Where each service was put and which links each demand was given; and for every service without a
node and every demand without a route, why.
-/

namespace EdgePlacement

/-- The node of each service, in the order of the services; none for a service that was not
placed. -/
abbrev Assignments := OrderedMap String (Option String)

structure PlacementFailure where
  service : String
  reason : String
  deriving DecidableEq

def PlacementFailure.noCapacity : String := "no node with sufficient capacity"

/-- The demand is known by its position among the demands. A placement that is made by hand may name
positions that no demand has. -/
structure RoutingFailure (α : Type) where
  index : Int
  demand : Demand α
  reason : String
  deriving DecidableEq

namespace RoutingFailure

def endpointUnplaced : String := "endpoint unplaced"

def noPath : String := "no path"

def insufficientBandwidth : String := "insufficient bandwidth"

end RoutingFailure

structure Placement (α : Type) where
  assignments : Assignments
  routes : OrderedMap Int (List String)
  placementFailures : List PlacementFailure
  routingFailures : List (RoutingFailure α)
  deriving DecidableEq

def Assignments.nodeOf? (assignments : Assignments) (service : String) : Option String :=
  (assignments.get? service).join

namespace Placement

variable {α : Type}

def nodeOf? (p : Placement α) (service : String) : Option String :=
  p.assignments.nodeOf? service

def placed (p : Placement α) : List (String × String) :=
  p.assignments.entries.filterMap fun (service, node) => node.map (service, ·)

def unplaced (p : Placement α) : List String :=
  p.placementFailures.map (·.service)

def routesByIndex (p : Placement α) : List (Int × List String) :=
  p.routes.entries.mergeSort fun a b => a.1 ≤ b.1

def unrouted (p : Placement α) : List Int :=
  p.routingFailures.map (·.index)

end Placement
end EdgePlacement
