import EdgePlacement.Relaxation.Fractions
import EdgePlacement.Relaxation.Instance

/-!
# Checking fractional assignments

A fractional assignment has one row for each service and one column for each node. Its entries lie
in the unit interval, its rows sum to one, and no node carries more than its capacity, each up to a
tolerance.
-/

namespace EdgePlacement.Relaxation

variable {α : Type} [Quantity α]

/-- Some entry lies outside the unit interval by more than the tolerance. -/
def leavesUnit (x : Fractions α) (tolerance : α) : Bool :=
  x.rows.any fun row => row.any fun v => decide (v < 0 - tolerance) || decide (1 + tolerance < v)

variable [Summation α]

def rowViolations (r : Relaxation α) (x : Fractions α) (tolerance : α) : List (Violation α) :=
  (r.serviceNames.zip x.rows).filterMap fun (service, row) =>
    let sum := Summation.total row
    if tolerance < Quantity.magnitude (sum - 1) then some (.rowTotal service sum) else none

/-- What the rows put on one node in one dimension. -/
def loadOn (r : Relaxation α) (x : Fractions α) (node : Nat) (d : Dimension) : α :=
  Summation.load x.rows r.requirements node d

def loadViolations (r : Relaxation α) (x : Fractions α) (tolerance : α) : List (Violation α) :=
  r.nodeNames.zipIdx.flatMap fun (name, node) =>
    Dimension.all.filterMap fun d =>
      let load := r.loadOn x node d
      let cap := r.capacity node d
      if cap + tolerance < load then some (.overload name d load cap) else none

/-- All violations: of the shape alone when it is wrong, else of the entries, the rows and the nodes
in this order. -/
def violations (r : Relaxation α) (x : Fractions α) (tolerance : α) : List (Violation α) :=
  if !x.hasShape r.serviceCount r.nodeCount then
    [.shape x.rows.length x.columns r.serviceCount r.nodeCount]
  else
    (if leavesUnit x tolerance then [.outsideUnit] else []) ++
      r.rowViolations x tolerance ++ r.loadViolations x tolerance

/-- The assignment moved into the unit interval, provided that it then violates nothing. -/
def finalize (r : Relaxation α) (x : Fractions α) (tolerance : α) :
    Except (Fault α) (Fractions α) :=
  let x := x.map Quantity.clipToUnit
  match r.violations x tolerance with
  | [] => .ok x
  | first :: rest => .error (.constraintsViolated (rest.length + 1) first)

end EdgePlacement.Relaxation
