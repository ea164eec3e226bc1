import EdgePlacement.Placement.Rounding
import EdgePlacement.Settings

/-!
# The placement pipeline

Relaxation, rounding, routing. Nothing is changed before the relaxation has been solved.
-/

namespace EdgePlacement

structure Plan (α : Type) where
  fractions : Fractions α
  serviceNames : List String
  nodeNames : List String
  placement : Placement α
  objective : α
  backend : Backend
  skippedRecords : Nat

def Plan.fractionalRow {α : Type} (plan : Plan α) (service : String) :
    Except (Fault α) (OrderedMap String α) :=
  match plan.serviceNames.idxOf? service with
  | some i => .ok (OrderedMap.ofPairs (plan.nodeNames.zip (plan.fractions.rows.getD i [])))
  | none => .error (.notListed service)

/-- The relaxation is solved by one part and rounded with the draws of another. -/
structure Planner (α σ δ : Type) where
  solver : Solver α
  sampler : Sampler α σ δ
  /-- Where the draws begin that no seed determines. -/
  unseeded : σ

structure Workload (α : Type) where
  services : List (Service α)
  demands : List (Demand α)

namespace Planner

variable {α σ δ : Type} [Quantity α] [Summation α]

def relax (planner : Planner α σ δ) (t : Topology α) (services : List (Service α))
    (settings : Settings α) : Except (Fault α) (Relaxation α × RelaxationSolution α) := do
  if t.nodes.isEmpty || services.isEmpty then
    .error (.nothingToPlace t.nodes.length services.length)
  else
    let relaxation ← Relaxation.ofEntities t.nodes services
    let solution ← relaxation.solve planner.solver settings.backend settings.tolerance
    return (relaxation, solution)

def generator (planner : Planner α σ δ) (settings : Settings α) : Except (Fault α) σ :=
  match settings.seed with
  | none => .ok planner.unseeded
  | some seed =>
    match planner.sampler.ofSeed? seed with
    | some g => .ok g
    | none => .error .negativeSeed

/-- The topology afterwards, changed as far as the run came, and the plan or why there is none. -/
def run [PathChoice α] (planner : Planner α σ δ) (t : Topology α) (workload : Workload α)
    (settings : Settings α) (skippedRecords : Nat) : Topology α × Except (Fault α) (Plan α) :=
  match planner.relax t workload.services settings with
  | .error fault => (t, .error fault)
  | .ok (relaxation, solution) =>
    let t := if settings.resetUsage then t.resetUsage else t
    match planner.generator settings with
    | .error fault => (t, .error fault)
    | .ok g =>
      let rounding : RoundingPlan α σ δ :=
        ⟨planner.sampler, relaxation.nodeNames, settings.tolerance⟩
      let input : RoundingInput α :=
        ⟨solution.fractions, workload.services, workload.demands, settings.weight.name⟩
      match roundFractions rounding input ⟨t, g⟩ with
      | (s, .error fault) => (s.topology, .error fault)
      | (s, .ok placement) =>
        (s.topology, .ok {
          fractions := solution.fractions
          serviceNames := relaxation.serviceNames
          nodeNames := relaxation.nodeNames
          placement := placement
          objective := solution.objective
          backend := solution.backend
          skippedRecords := skippedRecords })

end Planner

def standardPlanner : Planner Float Random.Pcg Float where
  solver := exactSolver
  sampler := pcgSampler
  unseeded := Random.Pcg.ofSeed 0

end EdgePlacement
