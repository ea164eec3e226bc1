import EdgePlacement.Proofs.FailedPlans
import EdgePlacement.Proofs.Paths.RoutingGraphs

/-!
# Runs that forget the past

The relaxation reads nothing of the nodes but names and capacities, and a run that is to start from
unused nodes and links resets them as soon as the relaxation is solved. What was placed, reserved or
asked before is then seen neither in the plan nor in the state that the run leaves. Only a run whose
relaxation fails leaves the past as it was. All this is said of one and the same beginning of the
draws, which a seed settles and which is anew at every run without one.
-/

namespace EdgePlacement

set_option autoImplicit false

variable {α σ δ : Type} [Quantity α]

theorem Relaxation.of_entities_reset (nodes : List (Node α)) (services : List (Service α)) :
    ofEntities (nodes.map Node.reset) services = ofEntities nodes services := by
  unfold ofEntities
  simp only [List.isEmpty_map, List.length_map, List.map_map]
  rfl

namespace Planner

variable [Summation α] {planner : Planner α σ δ} {t t' : Topology α} {workload : Workload α}
  {settings : Settings α} {skippedRecords : Nat}

theorem relax_reset (planner : Planner α σ δ) (t : Topology α) (services : List (Service α))
    (settings : Settings α) :
    planner.relax t.resetUsage services settings = planner.relax t services settings := by
  have nodes : t.resetUsage.nodes = t.nodes.map Node.reset := rfl
  unfold relax
  simp only [nodes, List.isEmpty_map, List.length_map, Relaxation.of_entities_reset]

theorem relax_of_same_layout (same : t'.resetUsage = t.resetUsage) (services : List (Service α)) :
    planner.relax t' services settings = planner.relax t services settings := by
  rw [← relax_reset planner t', same, relax_reset]

variable [PathChoice α]

theorem run_of_same_beginning {fresh : σ}
    (begun : settings.seed = none → fresh = planner.unseeded) :
    ({ planner with unseeded := fresh }).run t workload settings skippedRecords =
      planner.run t workload settings skippedRecords := by
  cases seeding : settings.seed with
  | some seed =>
      have sameDraws : ({ planner with unseeded := fresh }).generator settings =
          planner.generator settings := by
        simp only [generator, seeding]
      unfold run
      rw [sameDraws]
      rfl
  | none =>
      obtain rfl := begun seeding
      rfl

theorem run_unrelaxed {fault : Fault α}
    (failed : planner.relax t workload.services settings = .error fault) :
    planner.run t workload settings skippedRecords = (t, .error fault) := by
  simp only [run, failed]

/-- Once the relaxation is solved, the run is one on unused nodes and links. -/
theorem run_relaxed {relaxed : Relaxation α × RelaxationSolution α}
    (solved : planner.relax t workload.services settings = .ok relaxed)
    (resetting : settings.resetUsage = true) :
    planner.run t workload settings skippedRecords =
      planner.run t.resetUsage workload settings skippedRecords := by
  have solvedReset : planner.relax t.resetUsage workload.services settings = .ok relaxed :=
    (relax_reset planner t workload.services settings).trans solved
  simp only [run, solved, solvedReset, resetting, if_true, t.reset_twice]

theorem run_of_same_layout (same : t'.resetUsage = t.resetUsage)
    (resetting : settings.resetUsage = true) :
    planner.run t' workload settings skippedRecords =
        planner.run t workload settings skippedRecords ∨
      ∃ fault, planner.relax t workload.services settings = .error fault := by
  cases relaxed : planner.relax t workload.services settings with
  | error fault => exact Or.inr ⟨fault, rfl⟩
  | ok solution =>
      have relaxed' := (relax_of_same_layout same workload.services).trans relaxed
      left
      rw [run_relaxed relaxed resetting, run_relaxed relaxed' resetting, same]

theorem run_keeps_layout (planner : Planner α σ δ) (wellFormed : t.WellFormed)
    (workload : Workload α) (settings : Settings α) (skippedRecords : Nat) :
    (planner.run t workload settings skippedRecords).1.resetUsage = t.resetUsage := by
  have changes : Relation.ReflTransGen (Change (fun _ => True) fun _ => True) t
      (planner.run t workload settings skippedRecords).1 := by
    apply run_changes
    · exact fun _ _ => trivial
    · exact fun _ _ => trivial
  exact Topology.changes_keep_layout wellFormed changes

end Planner

variable [Summation α] [PathChoice α]

/-- A run that resets ends the same way from any two states of a topology, as long as its draws
begin the same way: with the same plan and the same state, or with the same fault, which leaves both
states alone when it is one of the relaxation. A second run in a row therefore repeats the first
one. Nor does it matter since when the routing graph has been kept: it finds in every state the
paths that a new one would find. -/
theorem resetting_run_forgets_past (planner : Planner α σ δ) (fresh : σ) (t t' : Topology α)
    (workload : Workload α) (settings : Settings α) (skippedRecords : Nat)
    (wellFormed : t.WellFormed) (same : t'.resetUsage = t.resetUsage)
    (resetting : settings.resetUsage = true)
    (begun : settings.seed = none → fresh = planner.unseeded) :
    (({ planner with unseeded := fresh }).run t' workload settings skippedRecords =
        planner.run t workload settings skippedRecords ∨
      ∃ fault, fault.OfRelaxation ∧
        planner.run t workload settings skippedRecords = (t, .error fault) ∧
        ({ planner with unseeded := fresh }).run t' workload settings skippedRecords =
          (t', .error fault)) ∧
    ({ planner with unseeded := fresh }).run
        (planner.run t workload settings skippedRecords).1 workload settings skippedRecords =
      planner.run t workload settings skippedRecords ∧
    ∀ earlier now : Topology α, earlier.resetUsage = t.resetUsage →
      now.resetUsage = t.resetUsage → ∀ a b weight,
        (now.seenBy earlier.routing).findPath a b weight = now.findPath a b weight := by
  rw [Planner.run_of_same_beginning begun, Planner.run_of_same_beginning begun]
  refine ⟨?_, ?_, ?_⟩
  · rcases Planner.run_of_same_layout same resetting with agree | ⟨fault, failed⟩
    · exact Or.inl agree
    · have failed' := (Planner.relax_of_same_layout same workload.services).trans failed
      right
      exact ⟨fault, relaxing_fault failed, Planner.run_unrelaxed failed,
        Planner.run_unrelaxed failed'⟩
  · have layout := planner.run_keeps_layout wellFormed workload settings skippedRecords
    rcases Planner.run_of_same_layout layout resetting with agree | ⟨fault, failed⟩
    · exact agree
    · rw [Planner.run_unrelaxed failed, Planner.run_unrelaxed failed]
  · intro earlier now earlierLayout nowLayout a b weight
    exact Topology.find_path_seen (wellFormed.of_same_layout nowLayout)
      (earlierLayout.trans nowLayout.symm) a b weight

/-- The triangle in the middle of its use: a service that no run knows of, bandwidth that no demand
accounts for, and a second link between two of the nodes. -/
def busyTriangle : Topology Rat where
  nodes := [⟨"a", ⟨1, 0, 0, 0⟩, ⟨1, 0, 0, 0⟩, ["x"]⟩, ⟨"b", ⟨0, 1, 0, 0⟩, 0, []⟩,
    Node.fresh "c" 0]
  links := [⟨"ab", "a", "b", 10, 3, 10⟩, ⟨"ba", "b", "a", 10, 1, 7⟩, ⟨"ac", "a", "c", 10, 1, 0⟩,
    ⟨"bc", "b", "c", 10, 1, 3⟩]
  canonical := [("a", "a"), ("b", "b"), ("c", "c")]
  tieTolerance := 0

def trianglePlanner : Planner Rat Unit Unit :=
  answering [1, 0, 0, 0, 1, 0] fun _ _ => true

theorem busy_triangle_forgotten :
    busyTriangle.WellFormed ∧ busyTriangle.resetUsage ≠ busyTriangle ∧
    trianglePlanner.run busyTriangle.resetUsage triangleWorkload (usualSettings 42 true) 0 =
      trianglePlanner.run busyTriangle triangleWorkload (usualSettings 42 true) 0 ∧
    (trianglePlanner.run busyTriangle triangleWorkload (usualSettings 42 true) 0).2.isOk = true ∧
    (busyTriangle.seenBy busyTriangle.resetUsage.routing).findPath "a" "b" "latency" =
      .ok (some [⟨"ba", "b", "a", 10, 1, 7⟩]) := by
  have wellFormed : busyTriangle.WellFormed := ⟨by decide, by decide, by decide, by decide⟩
  have layout := busyTriangle.reset_twice
  have planned : (trianglePlanner.run busyTriangle triangleWorkload (usualSettings 42 true)
      0).2.isOk = true := by cbv
  obtain ⟨ending, -, seen⟩ := resetting_run_forgets_past trianglePlanner () busyTriangle
    busyTriangle.resetUsage triangleWorkload (usualSettings 42 true) 0 wellFormed layout rfl
    fun _ => rfl
  refine ⟨wellFormed, by decide, ?_, planned, ?_⟩
  · rcases ending with agree | ⟨fault, -, failed, -⟩
    · exact agree
    · rw [failed] at planned
      cases planned
  · rw [seen busyTriangle.resetUsage busyTriangle layout rfl]
    cbv

def halvedNodes : Topology Float where
  nodes := [Node.fresh "a" ⟨1, 1, 1, 1⟩, Node.fresh "b" ⟨1, 1, 1, 1⟩]
  links := []
  canonical := [("a", "a"), ("b", "b")]
  tieTolerance := 0

def halvingPlanner (beginning : Nat) : Planner Float Random.Pcg Float where
  solver := ⟨fun _ => .solved [1 / 2, 1 / 2], fun _ => .stopped⟩
  sampler := pcgSampler
  unseeded := Random.Pcg.ofSeed beginning

def halvedService : Workload Float where
  services := [⟨"s", 1, 1, 0, 0, 0, 0⟩]
  demands := []

def unseededSettings : Settings Float :=
  ⟨none, .highs, 0, .latency, true, false, none⟩

/-- Without a seed two runs from one state may place a service differently; and a run whose
relaxation fails resets nothing, so that states that were different stay so. -/
theorem resetting_runs_may_differ :
    ((halvingPlanner 2).run halvedNodes halvedService unseededSettings
        0).2.toOption.map (·.placement.assignments) = some ⟨[("s", some "a")]⟩ ∧
    ((halvingPlanner 42).run halvedNodes halvedService unseededSettings
        0).2.toOption.map (·.placement.assignments) = some ⟨[("s", some "b")]⟩ ∧
    ∃ fault, fault.OfRelaxation ∧
      trianglePlanner.run (hostingNode ⟨1, 1, 0, 0⟩ ["s"]) ⟨[⟨"t", 100, 1, 0, 0, 0, 0⟩], []⟩
        (usualSettings 42 true) 0 = (hostingNode ⟨1, 1, 0, 0⟩ ["s"], .error fault) ∧
      trianglePlanner.run (hostingNode 0 []) ⟨[⟨"t", 100, 1, 0, 0, 0, 0⟩], []⟩
        (usualSettings 42 true) 0 = (hostingNode 0 [], .error fault) := by
  refine ⟨?_, ?_, .aggregateExceeded .storage 100 10, ?_, ?_, ?_⟩
  · decide +kernel
  · decide +kernel
  · exact Or.inr (Or.inl rfl)
  · cbv
  · cbv
end EdgePlacement
