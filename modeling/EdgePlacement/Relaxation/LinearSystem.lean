/-!
# Linear systems over the rationals

Non-negative unknowns under equations and upper limits on linear forms. A point of least total
shortfall is found by the simplex method: every equation starts with a shortfall of its own, and
pivots lower the sum of the shortfalls until no column can lower it further. While pivots lower
nothing, their columns and rows are the first that qualify, which keeps them from going round in
circles.
-/

namespace EdgePlacement

structure LinearForm where
  coefficients : List Rat
  bound : Rat

structure LinearSystem where
  unknowns : Nat
  equal : List LinearForm
  atMost : List LinearForm

namespace LinearSystem

/-- One row of the tableau. Its basic column is none while the row has a shortfall column of its
own, which is not stored, for it never comes back. -/
structure Row where
  coefficients : Array Rat
  bound : Rat
  basic : Option Nat

namespace Row

def entry (row : Row) (column : Nat) : Rat :=
  row.coefficients.getD column 0

def scale (row : Row) (factor : Rat) : Row :=
  { row with coefficients := row.coefficients.map (· * factor), bound := row.bound * factor }

def reduce (row pivot : Row) (factor : Rat) : Row :=
  if factor = 0 then row
  else
    { row with
      coefficients := row.coefficients.mapIdx fun column v => v - factor * pivot.entry column
      bound := row.bound - factor * pivot.bound }

end Row

def startRow (columns : Nat) (form : LinearForm) (slack : Option Nat) : Row :=
  let coefficients := (Array.range columns).map fun column =>
    if slack = some column then 1 else form.coefficients.getD column 0
  if form.bound < 0 then Row.scale ⟨coefficients, form.bound, none⟩ (-1)
  else ⟨coefficients, form.bound, slack⟩

def startRows (s : LinearSystem) : List Row :=
  let columns := s.unknowns + s.atMost.length
  s.equal.map (fun form => startRow columns form none) ++
    s.atMost.zipIdx.map fun (form, i) => startRow columns form (some (s.unknowns + i))

def shortfall (rows : List Row) : Rat :=
  rows.foldl (fun sum row => if row.basic.isNone then sum + row.bound else sum) 0

/-- How fast the shortfall falls when a column grows. -/
def gain (rows : List Row) (column : Nat) : Rat :=
  rows.foldl (fun sum row => if row.basic.isNone then sum + row.entry column else sum) 0

def firstGain? (rows : List Row) (columns : Nat) : Option Nat :=
  (List.range columns).find? fun column => decide (0 < gain rows column)

def steepestGain? (rows : List Row) (columns : Nat) : Option Nat :=
  ((List.range columns).foldl (fun best column =>
    let mine := gain rows column
    match best with
    | some (_, leader) => if leader < mine then some (column, mine) else best
    | none => if 0 < mine then some (column, mine) else none) none).map (·.1)

/-- A row with a shortfall goes before one without, and otherwise the lower basic column goes
first. -/
def leavesBefore (a b : Row) : Bool :=
  match a.basic, b.basic with
  | none, _ => true
  | some _, none => false
  | some i, some j => i < j

/-- The row that limits the growth of a column most. -/
def leavingRow? (rows : List Row) (column : Nat) : Option (Nat × Row) :=
  rows.zipIdx.foldl (fun best (row, i) =>
    if 0 < row.entry column then
      match best with
      | none => some (i, row)
      | some (_, leader) =>
        let mine := row.bound * leader.entry column
        let theirs := leader.bound * row.entry column
        if mine < theirs || (mine = theirs && leavesBefore row leader) then some (i, row) else best
    else best) none

def pivot (rows : List Row) (column place : Nat) (leaving : Row) : List Row :=
  let unit := { leaving.scale (1 / leaving.entry column) with basic := some column }
  rows.zipIdx.map fun (row, i) => if i = place then unit else row.reduce unit (row.entry column)

/-- The steepest column is chosen as long as the shortfall falls, and the first one while it does
not. -/
def enteringColumn? (rows : List Row) (columns : Nat) (stalled : Bool) : Option Nat :=
  if stalled then firstGain? rows columns else steepestGain? rows columns

/-- None when the fuel does not last until no column can lower the shortfall. -/
def settle? (columns : Nat) : Nat → Bool → List Row → Option (List Row)
  | 0, _, _ => none
  | fuel + 1, stalled, rows =>
    match enteringColumn? rows columns stalled with
    | none => some rows
    | some column =>
      match leavingRow? rows column with
      | none => some rows
      | some (place, leaving) =>
        let next := pivot rows column place leaving
        settle? columns fuel (shortfall next = shortfall rows) next

def pointOf (rows : List Row) (unknowns : Nat) : List Rat :=
  (List.range unknowns).map fun column =>
    match rows.find? fun row => row.basic = some column with
    | some row => row.bound
    | none => 0

/-- A point with its total shortfall, the least there is. -/
def leastShortfall? (s : LinearSystem) (fuel : Nat) : Option (List Rat × Rat) :=
  (settle? (s.unknowns + s.atMost.length) fuel false s.startRows).map fun rows =>
    (pointOf rows s.unknowns, shortfall rows)

end LinearSystem
end EdgePlacement
