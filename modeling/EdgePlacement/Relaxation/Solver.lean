import EdgePlacement.Decimal.Binary64
import EdgePlacement.Decimal.Rounding
import EdgePlacement.Relaxation.LinearSystem
import EdgePlacement.Relaxation.Program

/-!
# Solvers for the relaxation

A solver is handed a linear program in one of its two statements and answers with a point, or says
why it has none. The exact solver reads the binary64 data as the rationals that they are. Cost does
not depend on the node, so that every feasible point is optimal and any one of them will do.
-/

namespace EdgePlacement

inductive SolverAnswer (β : Type) where
  | solved (point : β)
  | infeasible
  | stopped
  | unusable

namespace SolverAnswer

def map {β γ : Type} (f : β → γ) : SolverAnswer β → SolverAnswer γ
  | solved point => solved (f point)
  | infeasible => infeasible
  | stopped => stopped
  | unusable => unusable

end SolverAnswer

structure Solver (α : Type) where
  matrix : MatrixProgram α → SolverAnswer (List α)
  named : NamedProgram α → SolverAnswer (Share → α)

namespace ExactSolver

open EdgePlacement.Decimal

def exactForm? (coefficients : List Float) (bound : Float) : Option LinearForm := do
  let coefficients ← coefficients.mapM exactValue?
  let bound ← exactValue? bound
  return ⟨coefficients, bound⟩

def shift (least : Rat) (form : LinearForm) : LinearForm :=
  { form with bound := form.bound - form.coefficients.foldl (fun sum c => sum + c * least) 0 }

/-- An equation without negative coefficients keeps an unknown below its bound by itself. -/
def keepsBelow (most : Rat) (unknown : Nat) (form : LinearForm) : Bool :=
  let coefficient := form.coefficients.getD unknown 0
  form.coefficients.all (0 ≤ ·) && 0 < coefficient && form.bound ≤ most * coefficient

def unitForm (unknowns unknown : Nat) (bound : Rat) : LinearForm :=
  ⟨(List.range unknowns).map fun k => if k = unknown then 1 else 0, bound⟩

/-- Upper bounds that no equation implies become rows of their own. -/
def boundRows (unknowns : Nat) (most : Rat) (equal : List LinearForm) : List LinearForm :=
  (List.range unknowns).filterMap fun k =>
    if equal.any (keepsBelow most k) then none else some (unitForm unknowns k most)

def system? (p : MatrixProgram Float) : Option LinearSystem := do
  let _ ← p.objective.mapM exactValue?
  let least ← exactValue? p.least
  let most ← exactValue? p.most
  let upper ← p.upper.mapM fun (row, bound) => exactForm? row bound
  let equal ← p.equal.mapM fun (row, bound) => exactForm? row bound
  let upper := upper.map (shift least)
  let equal := equal.map (shift least)
  let unknowns := p.objective.length
  return ⟨unknowns, equal, upper ++ boundRows unknowns (most - least) equal⟩

/-- A total shortfall up to this much is put down to the rounding of the data. -/
def tolerance : Rat := 1 / 10000000

def negligible : Rat := 1 / 1000000000

def nearestFloat (v : Rat) : Float :=
  let size := Float.ofNat (roundHalfEven (v.num.natAbs * Nat.pow 2 60) v.den) / 1152921504606846976
  if v < 0 then -size else size

def snap (v : Rat) : Rat :=
  if v < negligible then 0 else v

def pivotLimit : Nat := 100000

def solveMatrix (p : MatrixProgram Float) : SolverAnswer (List Float) :=
  match system? p, exactValue? p.least with
  | some system, some least =>
    match system.leastShortfall? pivotLimit with
    | none => .stopped
    | some (point, shortfall) =>
      if tolerance < shortfall then .infeasible
      else .solved (point.map fun v => nearestFloat (snap v + least))
  | _, _ => .unusable

def matrixOf (p : NamedProgram Float) : MatrixProgram Float :=
  let row (terms : List (Float × Share)) : List Float :=
    p.shares.map fun share =>
      (terms.filter fun term => term.2 = share).foldl (fun sum term => sum + term.1) 0
  let rows (sense : Sense) : List (List Float × Float) :=
    (p.constraints.filter fun c => c.sense = sense).map fun c => (row c.terms, c.bound)
  { objective := row p.objective
    upper := rows .atMost
    equal := rows .equal
    least := p.least
    most := p.most }

def solveNamed (p : NamedProgram Float) : SolverAnswer (Share → Float) :=
  (solveMatrix (matrixOf p)).map fun point share => ((p.shares.zip point).lookup share).getD 0

end ExactSolver

def exactSolver : Solver Float where
  matrix := ExactSolver.solveMatrix
  named := ExactSolver.solveNamed

end EdgePlacement
