import EdgePlacement.Placement.Candidates
import EdgePlacement.Placement.Routing
import EdgePlacement.Relaxation.Fractions

/-!
# Rounding a fractional assignment

The services are placed one after the other, each on the first of its candidates that can host it,
in the state that the services before it have left; then the demands between them are routed. A
service leaves its former nodes before it is placed anew.
-/

namespace EdgePlacement

/-- What rounding changes: the counters of the topology and the state of the generator. -/
structure RoundingState (α σ : Type) where
  topology : Topology α
  generator : σ
  deriving DecidableEq

/-- What stays the same while services are placed. -/
structure RoundingPlan (α σ δ : Type) where
  sampler : Sampler α σ δ
  nodeNames : List String
  tolerance : α

namespace RoundingPlan

variable {α σ δ : Type}

def nodes (plan : RoundingPlan α σ δ) (t : Topology α) : List (Node α) :=
  plan.nodeNames.filterMap t.node?

variable [Quantity α] [Summation α]

def place (plan : RoundingPlan α σ δ) (service : Service α) (weights : List α)
    (s : RoundingState α σ) : RoundingState α σ × Except (Fault α) (Option String) :=
  let t := s.topology.undeployEverywhere service
  match candidateOrder plan.sampler weights (plan.nodes t) plan.tolerance s.generator with
  | (.error fault, g) => (⟨t, g⟩, .error fault)
  | (.ok candidates, g) =>
    match candidates.findSome? fun n => n.deploy? service with
    | some n => (⟨t.updateNode n.name fun _ => n, g⟩, .ok (some n.name))
    | none => (⟨t, g⟩, .ok none)

/-- A fault ends the placing and keeps what was placed. -/
def placeAll (plan : RoundingPlan α σ δ) :
    List (Service α × List α) → RoundingState α σ →
      RoundingState α σ × Except (Fault α) (List (String × Option String))
  | [], s => (s, .ok [])
  | (service, weights) :: rest, s =>
    match plan.place service weights s with
    | (s, .error fault) => (s, .error fault)
    | (s, .ok node) =>
      let (s, later) := plan.placeAll rest s
      (s, later.map ((service.name, node) :: ·))

end RoundingPlan

def Placement.ofParts {α : Type} (assignments : List (String × Option String))
    (routing : Routing α) : Placement α where
  assignments := ⟨assignments⟩
  routes := ⟨routing.routes⟩
  placementFailures := assignments.filterMap fun (service, node) =>
    if node.isNone then some ⟨service, PlacementFailure.noCapacity⟩ else none
  routingFailures := routing.failures

/-- What is to be rounded: row by row the fractions of the services, column by column the nodes. -/
structure RoundingInput (α : Type) where
  fractions : Fractions α
  services : List (Service α)
  demands : List (Demand α)
  weight : String

variable {α σ δ : Type}

def RoundingInput.fault? (input : RoundingInput α) (nodeNames : List String) (t : Topology α) :
    Option (Fault α) :=
  match nodeNames.find? fun name => !t.hasNode name with
  | some name => some (.unknownNode name)
  | none =>
    if !input.fractions.hasShape input.services.length nodeNames.length then
      some (.matrixShape input.fractions.rows.length input.fractions.columns
        input.services.length nodeNames.length)
    else if !decide (input.services.map (·.name)).Nodup then some .repeatedServices
    else none

variable [Quantity α] [Summation α] [PathChoice α]

def roundFractions (plan : RoundingPlan α σ δ) (input : RoundingInput α) (s : RoundingState α σ) :
    RoundingState α σ × Except (Fault α) (Placement α) :=
  match input.fault? plan.nodeNames s.topology with
  | some fault => (s, .error fault)
  | none =>
    match plan.placeAll (input.services.zip input.fractions.rows) s with
    | (s, .error fault) => (s, .error fault)
    | (s, .ok assignments) =>
      let (t, routing) := s.topology.routeDemands input.demands ⟨assignments⟩ input.weight
      ({ s with topology := t }, routing.map (Placement.ofParts assignments))

end EdgePlacement
