import EdgePlacement.Network.Reservation
import EdgePlacement.Placement.Result

/-!
# Routing demands

Each demand is routed in turn between the nodes of its two services, in the counters that the
demands before it have left. A demand that is not routed leaves no reservation behind.
-/

namespace EdgePlacement

inductive RouteOutcome where
  | routed (links : List String)
  | failed (reason : String)
  deriving DecidableEq

structure Routing (α : Type) where
  routes : List (Int × List String)
  failures : List (RoutingFailure α)
  deriving DecidableEq

namespace Topology

variable {α : Type} [Quantity α] [PathChoice α]

def routeDemand (t : Topology α) (assignments : Assignments) (weight : String) (demand : Demand α) :
    Topology α × Except (Fault α) RouteOutcome :=
  match assignments.nodeOf? demand.source, assignments.nodeOf? demand.target with
  | some source, some target =>
    match t.findPath source target weight with
    | .error fault => (t, .error fault)
    | .ok none => (t, .ok (.failed RoutingFailure.noPath))
    | .ok (some path) =>
      match t.reservePath path demand.bandwidth with
      | (t, true) => (t, .ok (.routed (path.map (·.id))))
      | (t, false) => (t, .ok (.failed RoutingFailure.insufficientBandwidth))
  | _, _ => (t, .ok (.failed RoutingFailure.endpointUnplaced))

def Routing.add (index : Int) (demand : Demand α) (outcome : RouteOutcome) (later : Routing α) :
    Routing α :=
  match outcome with
  | .routed links => { later with routes := (index, links) :: later.routes }
  | .failed reason => { later with failures := ⟨index, demand, reason⟩ :: later.failures }

def routeFrom (assignments : Assignments) (weight : String) :
    Int → List (Demand α) → Topology α → Topology α × Except (Fault α) (Routing α)
  | _, [], t => (t, .ok ⟨[], []⟩)
  | index, demand :: rest, t =>
    match t.routeDemand assignments weight demand with
    | (t, .error fault) => (t, .error fault)
    | (t, .ok outcome) =>
      let (t, later) := routeFrom assignments weight (index + 1) rest t
      (t, later.map (Routing.add index demand outcome))

def routeDemands (t : Topology α) (demands : List (Demand α)) (assignments : Assignments)
    (weight : String) : Topology α × Except (Fault α) (Routing α) :=
  routeFrom assignments weight 0 demands t

end Topology
end EdgePlacement
