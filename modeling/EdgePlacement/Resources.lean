import EdgePlacement.Quantity

/-!
# Resources

One value for each resource that nodes offer and services need.
-/

namespace EdgePlacement

inductive Dimension where
  | storage
  | compute
  | uplink
  | downlink
  deriving DecidableEq

namespace Dimension

def all : List Dimension := [storage, compute, uplink, downlink]

def name : Dimension → String
  | storage => "storage"
  | compute => "compute"
  | uplink => "uplink"
  | downlink => "downlink"

end Dimension

structure Resources (α : Type) where
  storage : α
  compute : α
  uplink : α
  downlink : α
  deriving DecidableEq

namespace Resources

variable {α : Type}

def get (r : Resources α) : Dimension → α
  | .storage => r.storage
  | .compute => r.compute
  | .uplink => r.uplink
  | .downlink => r.downlink

def ofFn (f : Dimension → α) : Resources α :=
  ⟨f .storage, f .compute, f .uplink, f .downlink⟩

def values (r : Resources α) : List α :=
  [r.storage, r.compute, r.uplink, r.downlink]

def entries (r : Resources α) : List (String × α) :=
  Dimension.all.map fun d => (d.name, r.get d)

variable [Quantity α]

instance : Zero (Resources α) where
  zero := ⟨0, 0, 0, 0⟩

instance : Add (Resources α) where
  add r s := ofFn fun d => r.get d + s.get d

instance : Sub (Resources α) where
  sub r s := ofFn fun d => r.get d - s.get d

def floorZero (r : Resources α) : Resources α :=
  ofFn fun d => Quantity.positivePart (r.get d)

def fitsIn (r capacity : Resources α) (tolerance : α) : Bool :=
  Dimension.all.all fun d => decide (r.get d ≤ capacity.get d + tolerance)

def isNegative (r : Resources α) : Bool :=
  Dimension.all.any fun d => decide (r.get d < 0)

/-- Equal in every dimension; a value that differs from itself makes the resources differ. -/
def agrees (r s : Resources α) : Bool :=
  Dimension.all.all fun d => r.get d == s.get d

end Resources
end EdgePlacement
