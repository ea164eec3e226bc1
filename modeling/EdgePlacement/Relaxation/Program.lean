import EdgePlacement.Decimal.Whole
import EdgePlacement.Relaxation.Fractions
import EdgePlacement.Relaxation.Instance

/-!
# The relaxation as a linear program

The relaxation is stated twice: as a matrix program over one flat vector of variables, service by
service, and as a program of named constraints over variables with two indices. In both every
service is assigned once, no node is loaded beyond its capacity in an active dimension, and every
variable lies between zero and one; the cost of a service is charged wherever it is put.
-/

namespace EdgePlacement

/-- Minimise `objective · v` subject to `upper` rows, `equal` rows and the same bounds for every
variable. A row is a list of coefficients with its right-hand side. -/
structure MatrixProgram (α : Type) where
  objective : List α
  upper : List (List α × α)
  equal : List (List α × α)
  least : α
  most : α

inductive Sense where
  | equal
  | atMost
  deriving DecidableEq

structure Share where
  service : Nat
  node : Nat
  deriving DecidableEq

structure NamedConstraint (α : Type) where
  name : String
  terms : List (α × Share)
  sense : Sense
  bound : α

structure NamedProgram (α : Type) where
  shares : List Share
  least : α
  most : α
  objective : List (α × Share)
  constraints : List (NamedConstraint α)

namespace MatrixProgram

variable {α : Type} [Quantity α]

def formValue (coefficients v : List α) : α :=
  Quantity.total (List.zipWith (· * ·) coefficients v)

def value (p : MatrixProgram α) (v : List α) : α :=
  formValue p.objective v

end MatrixProgram

namespace NamedProgram

variable {α : Type} [Quantity α]

def formValue (terms : List (α × Share)) (v : Share → α) : α :=
  Quantity.total (terms.map fun (coefficient, share) => coefficient * v share)

def value (p : NamedProgram α) (v : Share → α) : α :=
  formValue p.objective v

end NamedProgram

namespace Relaxation

open EdgePlacement.Decimal

variable {α : Type} [Quantity α]

def serviceIndices (r : Relaxation α) : List Nat := List.range r.serviceCount

def nodeIndices (r : Relaxation α) : List Nat := List.range r.nodeCount

/-- The variables service by service, and for each service node by node. -/
def shares (r : Relaxation α) : List Share :=
  r.serviceIndices.flatMap fun i => r.nodeIndices.map fun j => ⟨i, j⟩

def position (r : Relaxation α) (share : Share) : Nat :=
  share.service * r.nodeCount + share.node

def zeroRow (r : Relaxation α) : List α :=
  List.replicate r.shares.length 0

def rowOf {ι : Type} (r : Relaxation α) (items : List ι) (share : ι → Share) (coefficient : ι → α) :
    List α :=
  items.foldl (fun row item => row.set (r.position (share item)) (coefficient item)) r.zeroRow

def costRow (r : Relaxation α) : List α :=
  r.rowOf r.shares id fun share => r.cost share.service

def capacityRow (r : Relaxation α) (node : Nat) (d : Dimension) : List α :=
  r.rowOf r.serviceIndices (fun i => ⟨i, node⟩) fun i => r.requirement i d

def assignmentRow (r : Relaxation α) (service : Nat) : List α :=
  r.rowOf r.nodeIndices (fun j => ⟨service, j⟩) fun _ => 1

def matrixProgram (r : Relaxation α) : MatrixProgram α where
  objective := r.costRow
  upper := r.nodeIndices.flatMap fun j =>
    r.activeDimensions.map fun d => (r.capacityRow j d, r.capacity j d)
  equal := r.serviceIndices.map fun i => (r.assignmentRow i, 1)
  least := 0
  most := 1

def assignmentConstraint (r : Relaxation α) (service : Nat) : NamedConstraint α where
  name := "assign_" ++ countText service
  terms := r.nodeIndices.map fun j => (1, ⟨service, j⟩)
  sense := .equal
  bound := 1

def capacityConstraint (r : Relaxation α) (node : Nat) (d : Dimension) : NamedConstraint α where
  name := "cap_" ++ d.name ++ "_" ++ countText node
  terms := r.serviceIndices.map fun i => (r.requirement i d, ⟨i, node⟩)
  sense := .atMost
  bound := r.capacity node d

def namedProgram (r : Relaxation α) : NamedProgram α where
  shares := r.shares
  least := 0
  most := 1
  objective := r.shares.map fun share => (r.cost share.service, share)
  constraints :=
    r.serviceIndices.map r.assignmentConstraint ++
      r.nodeIndices.flatMap fun j => r.activeDimensions.map (r.capacityConstraint j)

/-- A flat vector as a matrix, service by service. -/
def reshape (r : Relaxation α) (v : List α) : Fractions α where
  columns := r.nodeCount
  rows := r.serviceIndices.map fun i => r.nodeIndices.map fun j => v.getD (r.position ⟨i, j⟩) 0

def tabulate (r : Relaxation α) (v : Share → α) : Fractions α where
  columns := r.nodeCount
  rows := r.serviceIndices.map fun i => r.nodeIndices.map fun j => v ⟨i, j⟩

end Relaxation
end EdgePlacement
