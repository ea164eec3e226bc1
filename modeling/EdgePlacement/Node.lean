import EdgePlacement.Service

/-!
# Resource nodes

A node with a fixed capacity, the usage reserved on it and the services it hosts. A reservation is
made in full or not at all; what is released never takes the usage below zero.
-/

namespace EdgePlacement

structure Node (α : Type) where
  name : String
  capacity : Resources α
  usage : Resources α
  hosted : List String
  deriving DecidableEq

namespace Node

variable {α : Type}

def hosts (n : Node α) (service : String) : Bool :=
  n.hosted.contains service

variable [Quantity α]

def fresh (name : String) (capacity : Resources α) : Node α :=
  ⟨name, capacity, 0, []⟩

def checked (name : String) (capacity : Resources α) : Except (Fault α) (Node α) :=
  if capacity.isNegative then .error (.negativeCapacity name) else .ok (fresh name capacity)

def remaining (n : Node α) : Resources α :=
  (n.capacity - n.usage).floorZero

def canHost (n : Node α) (request : Resources α) : Bool :=
  (n.usage + request).fitsIn n.capacity 0

/-- The highest ratio of usage to capacity over the dimensions with a capacity. -/
def load (n : Node α) : α :=
  Quantity.largest <|
    (Dimension.all.filter fun d => 0 < n.capacity.get d).map fun d =>
      n.usage.get d / n.capacity.get d

def reserve? (n : Node α) (request : Resources α) : Option (Node α) :=
  if n.canHost request then some { n with usage := n.usage + request } else none

def release (n : Node α) (request : Resources α) : Node α :=
  { n with usage := (n.usage - request).floorZero }

/-- The node with the service on it, or none when it does not fit. A service that is hosted already
is left as it is. -/
def deploy? (n : Node α) (service : Service α) : Option (Node α) :=
  if n.hosts service.name then some n
  else
    (n.reserve? service.requirements).map fun n =>
      { n with hosted := n.hosted ++ [service.name] }

def undeploy (n : Node α) (service : Service α) : Node α :=
  if n.hosts service.name then
    { n.release service.requirements with hosted := n.hosted.filter (· ≠ service.name) }
  else n

def reset (n : Node α) : Node α :=
  fresh n.name n.capacity

end Node
end EdgePlacement
