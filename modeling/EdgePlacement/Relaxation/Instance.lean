import EdgePlacement.Node
import EdgePlacement.Summation

/-!
# Instances of the fractional relaxation

A snapshot of node capacities and service requirements, by position. A dimension is active when some
service asks for something in it; only active dimensions constrain an assignment.
-/

namespace EdgePlacement

structure Relaxation (α : Type) where
  nodeNames : List String
  capacities : List (Resources α)
  serviceNames : List String
  requirements : List (Resources α)
  costs : List α
  deriving DecidableEq

namespace Relaxation

variable {α : Type}

def ofEntities (nodes : List (Node α)) (services : List (Service α)) :
    Except (Fault α) (Relaxation α) :=
  if nodes.isEmpty || services.isEmpty then
    .error (.emptyRelaxation nodes.length services.length)
  else
    .ok {
      nodeNames := nodes.map (·.name)
      capacities := nodes.map (·.capacity)
      serviceNames := services.map (·.name)
      requirements := services.map (·.requirements)
      costs := services.map (·.cost) }

def nodeCount (r : Relaxation α) : Nat := r.nodeNames.length

def serviceCount (r : Relaxation α) : Nat := r.serviceNames.length

variable [Quantity α]

def capacity (r : Relaxation α) (node : Nat) (d : Dimension) : α :=
  (r.capacities.getD node 0).get d

def requirement (r : Relaxation α) (service : Nat) (d : Dimension) : α :=
  (r.requirements.getD service 0).get d

def cost (r : Relaxation α) (service : Nat) : α :=
  r.costs.getD service 0

def isActive (r : Relaxation α) (d : Dimension) : Bool :=
  r.requirements.any fun need => decide (0 < need.get d)

def activeDimensions (r : Relaxation α) : List Dimension :=
  Dimension.all.filter r.isActive

variable [Summation α]

def demandOf (r : Relaxation α) (d : Dimension) : α :=
  Summation.total (r.requirements.map (·.get d))

def supplyOf (r : Relaxation α) (d : Dimension) : α :=
  Summation.total (r.capacities.map (·.get d))

/-- In no dimension do the requirements together exceed the capacities together. The first active
dimension where they do is reported. -/
def checkAggregate (r : Relaxation α) (tolerance : α) : Except (Fault α) Unit :=
  match r.activeDimensions.find? fun d => r.supplyOf d + tolerance < r.demandOf d with
  | some d => .error (.aggregateExceeded d (r.demandOf d) (r.supplyOf d))
  | none => .ok ()

end Relaxation
end EdgePlacement
