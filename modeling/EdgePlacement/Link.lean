import EdgePlacement.Fault
import EdgePlacement.Text.NameOrder

/-!
# Links

An undirected connection between two nodes with a bandwidth to share and a latency.
-/

namespace EdgePlacement

structure Link (α : Type) where
  id : String
  first : String
  second : String
  capacity : α
  latency : α
  used : α
  deriving DecidableEq

namespace Link

variable {α : Type}

def joins (l : Link α) (a b : String) : Bool :=
  (l.first == a && l.second == b) || (l.first == b && l.second == a)

def isLoop (l : Link α) : Bool :=
  l.first == l.second

def otherEnd (l : Link α) (node : String) : Except (Fault α) String :=
  if node = l.first then .ok l.second
  else if node = l.second then .ok l.first
  else .error (.notAnEndpoint node l.id)

variable [Quantity α]

def checked (id first second : String) (capacity latency : α) : Except (Fault α) (Link α) :=
  if capacity < 0 || latency < 0 then .error (.negativeLink id)
  else .ok ⟨id, first, second, capacity, latency, 0⟩

def residual (l : Link α) : α :=
  Quantity.positivePart (l.capacity - l.used)

def reserve? (l : Link α) (bandwidth : α) : Option (Link α) :=
  if l.capacity < l.used + bandwidth then none else some { l with used := l.used + bandwidth }

def release (l : Link α) (bandwidth : α) : Link α :=
  { l with used := Quantity.positivePart (l.used - bandwidth) }

def reset (l : Link α) : Link α :=
  { l with used := 0 }

/-- Among links of one pair of nodes the one of lower latency is preferred, then the one whose id
comes first: whether `l` is to be kept when `k` offers itself. -/
def keptOver (l k : Link α) : Bool :=
  if l.latency == k.latency then !Text.namePrecedes k.id l.id else decide (l.latency ≤ k.latency)

end Link
end EdgePlacement
