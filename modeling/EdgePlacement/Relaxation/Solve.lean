import EdgePlacement.Relaxation.Check
import EdgePlacement.Relaxation.Solver

/-!
# Solving the relaxation

The aggregate condition is checked first; then a solver is asked through one of the two statements
of the program, and its point has to pass the check of the fractional assignment.
-/

namespace EdgePlacement

namespace Backend

def all : List Backend := [highs, pulp]

def name : Backend → String
  | highs => "highs"
  | pulp => "pulp"

def ofName? (name : String) : Option Backend :=
  all.find? fun b => b.name = name

end Backend

structure RelaxationSolution (α : Type) where
  fractions : Fractions α
  objective : α
  backend : Backend

namespace Relaxation

variable {α : Type} [Quantity α]

def ask (r : Relaxation α) (solver : Solver α) : Backend → SolverAnswer (Fractions α × α)
  | .highs =>
    let program := r.matrixProgram
    (solver.matrix program).map fun v => (r.reshape v, program.value v)
  | .pulp =>
    let program := r.namedProgram
    (solver.named program).map fun v => (r.tabulate v, program.value v)

def solve [Summation α] (r : Relaxation α) (solver : Solver α) (backend : Backend) (tolerance : α) :
    Except (Fault α) (RelaxationSolution α) := do
  r.checkAggregate tolerance
  match r.ask solver backend with
  | .unusable => .error (.unusableData backend)
  | .infeasible => .error .noFractionalAssignment
  | .stopped => .error .noOptimum
  | .solved (x, objective) =>
    let x ← r.finalize x tolerance
    return ⟨x, objective, backend⟩

end Relaxation
end EdgePlacement
