/-!
# Matrices of fractions
-/

namespace EdgePlacement

/-- One row of fractions for each service, with the count of columns, which matters when there are
no rows. -/
structure Fractions (α : Type) where
  columns : Nat
  rows : List (List α)
  deriving DecidableEq

namespace Fractions

variable {α : Type}

def ofRows? (rows : List (List α)) : Option (Fractions α) :=
  let columns := (rows.head?.map List.length).getD 0
  if rows.all fun row => row.length == columns then some ⟨columns, rows⟩ else none

def hasShape (x : Fractions α) (rows columns : Nat) : Bool :=
  x.rows.length == rows && x.columns == columns

def map {β : Type} (f : α → β) (x : Fractions α) : Fractions β :=
  ⟨x.columns, x.rows.map fun row => row.map f⟩

end Fractions
end EdgePlacement
