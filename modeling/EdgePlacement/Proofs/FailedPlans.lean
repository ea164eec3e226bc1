import EdgePlacement.Proofs.Network.Bandwidth
import EdgePlacement.Proofs.Placement.Hosting
import EdgePlacement.Proofs.Relaxation.Violations

/-!
# Plans that fail

Until the relaxation is solved a run of the planner changes nothing. Then it resets the topology, if
it is to start from unused nodes and links, and it does so before the seed and the names of the
services are looked at. Placing and routing stop at the first fault, and what was placed and
reserved by then stays.
-/

namespace EdgePlacement

open Relation

set_option autoImplicit false

variable {α σ δ : Type} [Quantity α]

def Fault.OfDomain (fault : Fault α) : Prop :=
  fault.kind = .emptyInstance ∨ fault.kind = .infeasible ∨ fault.kind = .solverFailure

/-- The faults of the relaxation: there is nothing to place, no fractional assignment, no usable
answer of the solver, or no usable data for it. -/
def Fault.OfRelaxation (fault : Fault α) : Prop :=
  fault.kind = .emptyInstance ∨ fault.kind = .infeasible ∨ fault.kind = .solverFailure ∨
    ∃ backend, fault = .unusableData backend

def Settings.start (settings : Settings α) (t : Topology α) : Topology α :=
  if settings.resetUsage then t.resetUsage else t

def sharesOf [Summation α] (weights : List α) : List α :=
  let lifted := weights.map Quantity.liftToZero
  lifted.map (· / Summation.total lifted)

/-- One service of the workload comes or goes, or one link has the bandwidth of one of its demands
reserved or released. -/
def Workload.Change (workload : Workload α) : Topology α → Topology α → Prop :=
  EdgePlacement.Change
    (fun request => ∃ service ∈ workload.services, service.requirements = request)
    fun bandwidth => ∃ demand ∈ workload.demands, demand.bandwidth = bandwidth

theorem bind_failed {ε β γ : Type} {first : Except ε β} {next : β → Except ε γ} {fault : ε}
    (failed : (first >>= next) = .error fault) :
    first = .error fault ∨ ∃ between, first = .ok between ∧ next between = .error fault := by
  cases first with
  | error fault' =>
      cases failed
      exact Or.inl rfl
  | ok between => exact Or.inr ⟨between, rfl, failed⟩

namespace Relaxation

variable {r : Relaxation α} {x x' : Fractions α} {tolerance : α}

variable [Summation α] {solver : Solver α} {backend : Backend}

/-- Either the workload cannot be placed, or the solver cannot use its data. -/
theorem solve_fault_cases {fault : Fault α}
    (failed : r.solve solver backend tolerance = .error fault) :
    fault.OfDomain ∨ r.ask solver backend = .unusable ∧ fault = .unusableData backend := by
  unfold solve at failed
  rcases bind_failed failed with exceeded | ⟨-, -, asking⟩
  · unfold checkAggregate at exceeded
    split at exceeded
    · cases exceeded
      exact Or.inl (Or.inr (Or.inl rfl))
    · cases exceeded
  · split at asking
    · rename_i unusable
      cases asking
      exact Or.inr ⟨unusable, rfl⟩
    · cases asking
      exact Or.inl (Or.inr (Or.inl rfl))
    · cases asking
      exact Or.inl (Or.inr (Or.inr rfl))
    · rcases bind_failed asking with unfit | ⟨_, -, returned⟩
      · exact Or.inl (Or.inr (Or.inr (finalize_fault unfit)))
      · cases returned

theorem solved_shape {solution : RelaxationSolution α}
    (solved : r.solve solver backend tolerance = .ok solution) :
    solution.fractions.hasShape r.serviceCount r.nodeCount = true := by
  unfold solve at solved
  obtain ⟨-, -, asking⟩ := bind_returned solved
  split at asking
  · cases asking
  · cases asking
  · cases asking
  · obtain ⟨x, finalized, same⟩ := bind_returned asking
    cases same
    exact finalized_shape finalized

end Relaxation

variable [Summation α]

theorem relaxing_fault_cases {planner : Planner α σ δ} {t : Topology α}
    {services : List (Service α)} {settings : Settings α} {fault : Fault α}
    (failed : planner.relax t services settings = .error fault) :
    fault.OfDomain ∨ ∃ relaxation : Relaxation α,
      relaxation.ask planner.solver settings.backend = .unusable ∧
        fault = .unusableData settings.backend := by
  unfold Planner.relax at failed
  split_ifs at failed with empty
  · cases failed
    exact Or.inl (Or.inl rfl)
  · rcases bind_failed failed with unbuilt | ⟨relaxation, -, later⟩
    · unfold Relaxation.ofEntities at unbuilt
      split_ifs at unbuilt
    · rcases bind_failed later with unsolved | ⟨_, -, returned⟩
      · exact (Relaxation.solve_fault_cases unsolved).imp id fun unusable => ⟨relaxation, unusable⟩
      · cases returned

theorem relaxing_fault {planner : Planner α σ δ} {t : Topology α} {services : List (Service α)}
    {settings : Settings α} {fault : Fault α}
    (failed : planner.relax t services settings = .error fault) : fault.OfRelaxation := by
  rcases relaxing_fault_cases failed with
    (empty | infeasible | unsolved) | ⟨-, -, unusable⟩
  · exact Or.inl empty
  · exact Or.inr (Or.inl infeasible)
  · exact Or.inr (Or.inr (Or.inl unsolved))
  · exact Or.inr (Or.inr (Or.inr ⟨_, unusable⟩))

theorem relaxed_shape {planner : Planner α σ δ} {t : Topology α} {services : List (Service α)}
    {settings : Settings α} {relaxation : Relaxation α} {solution : RelaxationSolution α}
    (relaxed : planner.relax t services settings = .ok (relaxation, solution)) :
    solution.fractions.hasShape services.length t.nodeNames.length = true := by
  unfold Planner.relax at relaxed
  split_ifs at relaxed
  obtain ⟨built, ofEntities, later⟩ := bind_returned relaxed
  obtain ⟨solved, solving, same⟩ := bind_returned later
  cases same
  have shape := Relaxation.solved_shape solving
  unfold Relaxation.ofEntities at ofEntities
  split_ifs at ofEntities
  cases ofEntities
  unfold Relaxation.serviceCount Relaxation.nodeCount at shape
  rwa [List.length_map] at shape

theorem SolverAnswer.map_solved {β γ : Type} {f : β → γ} {answer : SolverAnswer β} {point : γ}
    (mapped : answer.map f = .solved point) :
    ∃ source, answer = .solved source ∧ f source = point := by
  cases answer <;> cases mapped
  exact ⟨_, rfl, rfl⟩

theorem SolverAnswer.map_unusable {β γ : Type} {f : β → γ} {answer : SolverAnswer β}
    (mapped : answer.map f = .unusable) : answer = .unusable := by
  cases answer <;> cases mapped
  rfl

omit [Summation α] in
theorem Relaxation.asked_rows {r : Relaxation α} {solver : Solver α} {backend : Backend}
    {x : Fractions α} {objective : α} (answered : r.ask solver backend = .solved (x, objective)) :
    ∀ row ∈ x.rows, row.length = r.nodeCount := by
  have shaped : ∀ entry : Nat → Nat → α,
      ∀ row ∈ r.serviceIndices.map (fun i => r.nodeIndices.map (entry i)),
        row.length = r.nodeCount := by
    intro entry row listed
    obtain ⟨i, -, rfl⟩ := List.mem_map.mp listed
    rw [List.length_map, nodeIndices, List.length_range]
  cases backend with
  | highs =>
      obtain ⟨v, -, same⟩ := SolverAnswer.map_solved answered
      cases same
      exact shaped _
  | pulp =>
      obtain ⟨v, -, same⟩ := SolverAnswer.map_solved answered
      cases same
      exact shaped _

theorem relaxed_rows {planner : Planner α σ δ} {t : Topology α} {services : List (Service α)}
    {settings : Settings α} {relaxation : Relaxation α} {solution : RelaxationSolution α}
    (relaxed : planner.relax t services settings = .ok (relaxation, solution)) :
    ∀ row ∈ solution.fractions.rows, row.length = t.nodeNames.length := by
  rw [← relaxation_node_names relaxed]
  unfold Planner.relax at relaxed
  split_ifs at relaxed
  obtain ⟨built, -, later⟩ := bind_returned relaxed
  obtain ⟨solved, solving, same⟩ := bind_returned later
  cases same
  unfold Relaxation.solve at solving
  obtain ⟨-, -, asking⟩ := bind_returned solving
  split at asking
  · cases asking
  · cases asking
  · cases asking
  · rename_i x objective answered
    obtain ⟨final, finalized, same⟩ := bind_returned asking
    cases same
    unfold Relaxation.finalize at finalized
    dsimp only at finalized
    split at finalized
    · cases finalized
      intro row listed
      obtain ⟨source, member, rfl⟩ := List.mem_map.mp listed
      rw [List.length_map]
      exact Relaxation.asked_rows answered source member
    · cases finalized

/-! ## Placing and rounding -/

theorem candidates_fault {sampler : Sampler α σ δ} {weights : List α} {nodes : List (Node α)}
    {tolerance : α} {g g' : σ} {fault : Fault α}
    (failed : candidateOrder sampler weights nodes tolerance g = (.error fault, g')) :
    fault = .refusedWeights ∧ ¬ Summation.total (weights.map Quantity.liftToZero) ≤ tolerance ∧
      sampler.admits nodes.length (sharesOf weights) = false := by
  unfold candidateOrder at failed
  dsimp only at failed
  split_ifs at failed with massless admitted
  · cases failed
  · cases failed
  · cases failed
    exact ⟨rfl, massless, Bool.eq_false_iff.mpr admitted⟩

namespace RoundingPlan

/-- The sampler refuses the shares of some service. -/
def SharesRefused (plan : RoundingPlan α σ δ) (weights : List α) : Prop :=
  ¬ Summation.total (weights.map Quantity.liftToZero) ≤ plan.tolerance ∧
    plan.sampler.admits plan.nodeNames.length (sharesOf weights) = false

omit [Quantity α] [Summation α] in
theorem listed_node_names (plan : RoundingPlan α σ δ) {t : Topology α}
    (known : ∀ name ∈ plan.nodeNames, name ∈ t.nodeNames) :
    (plan.nodes t).map (·.name) = plan.nodeNames := by
  have found : ∀ name ∈ plan.nodeNames, (t.node? name).map (·.name) = some name := by
    intro name listed
    obtain ⟨n, stored, named⟩ := List.mem_map.mp (known name listed)
    have present : (t.node? name).isSome = true := by
      unfold Topology.node?
      rw [List.find?_isSome]
      exact ⟨n, stored, by simpa using named⟩
    obtain ⟨m, same⟩ := Option.isSome_iff_exists.mp present
    rw [same, Option.map_some, (Topology.node_found same).2]
  unfold nodes
  rw [List.map_filterMap, List.filterMap_congr found, List.filterMap_some]

omit [Quantity α] [Summation α] in
theorem listed_node_count (plan : RoundingPlan α σ δ) {t : Topology α}
    (known : ∀ name ∈ plan.nodeNames, name ∈ t.nodeNames) :
    (plan.nodes t).length = plan.nodeNames.length := by
  rw [← plan.listed_node_names known, List.length_map]

theorem place_all_fault {plan : RoundingPlan α σ δ} {rows : List (Service α × List α)}
    {s s' : RoundingState α σ} {fault : Fault α} (distinct : s.topology.nodeNames.Nodup)
    (known : ∀ name ∈ plan.nodeNames, name ∈ s.topology.nodeNames)
    (failed : plan.placeAll rows s = (s', .error fault)) :
    fault = .refusedWeights ∧ ∃ row ∈ rows, plan.SharesRefused row.2 := by
  induction rows generalizing s with
  | nil => cases failed
  | cons row rest ih =>
      obtain ⟨service, weights⟩ := row
      unfold placeAll at failed
      split at failed
      · rename_i between fault' placing
        cases failed
        have outcome := plan.place_outcome service weights s
        rw [placing] at outcome
        cases outcome with
        | refused _ g order =>
            obtain ⟨cause, massive, refused⟩ := candidates_fault order
            have released := s.topology.undeploy_everywhere_node_names service
            rw [plan.listed_node_count (released.symm ▸ known)] at refused
            exact ⟨cause, (service, weights), List.mem_cons_self, massive, refused⟩
      · rename_i between host placing
        have rehosted := plan.place_rehosted service weights s between host distinct placing
        dsimp only at failed
        generalize later : plan.placeAll rest between = result at failed
        obtain ⟨last, answer⟩ := result
        cases answer with
        | ok assignments => cases failed
        | error fault' =>
            cases failed
            obtain ⟨cause, row, listed, refused⟩ :=
              ih (rehosted.names ▸ distinct) (rehosted.names ▸ known) later
            exact ⟨cause, row, List.mem_cons_of_mem _ listed, refused⟩

end RoundingPlan

omit [Quantity α] [Summation α] in
/-- Once nodes and shape are right, names alone can speak against an input. -/
theorem RoundingInput.repeated_of_fault {input : RoundingInput α} {nodeNames : List String}
    {t : Topology α} {fault : Fault α} (known : ∀ name ∈ nodeNames, name ∈ t.nodeNames)
    (shape : input.fractions.hasShape input.services.length nodeNames.length = true)
    (refused : input.fault? nodeNames t = some fault) :
    fault = .repeatedServices ∧ ¬ (input.services.map (·.name)).Nodup := by
  unfold RoundingInput.fault? at refused
  split at refused
  · rename_i name missing
    have member := known name (List.mem_of_find?_eq_some missing)
    have unknown := List.find?_some missing
    rw [(t.has_node_iff name).mpr member] at unknown
    cases unknown
  · rw [shape, Bool.not_true, if_neg Bool.false_ne_true] at refused
    split_ifs at refused with repeated
    cases refused
    exact ⟨rfl, by simpa using repeated⟩

variable [PathChoice α]

/-- Why a rounding of the right shape on known nodes fails, and which of its rows is refused. -/
theorem round_refusal {plan : RoundingPlan α σ δ} {input : RoundingInput α}
    {s s' : RoundingState α σ} {fault : Fault α} (wellFormed : s.topology.WellFormed)
    (known : ∀ name ∈ plan.nodeNames, name ∈ s.topology.nodeNames)
    (shape : input.fractions.hasShape input.services.length plan.nodeNames.length = true)
    (failed : roundFractions plan input s = (s', .error fault)) :
    (fault = .repeatedServices ∧ ¬ (input.services.map (·.name)).Nodup ∧ s' = s) ∨
    (fault = .refusedWeights ∧ ∃ weights ∈ input.fractions.rows, plan.SharesRefused weights) ∨
    s.topology.SearchFails input.weight fault := by
  unfold roundFractions at failed
  split at failed
  · rename_i refused
    cases failed
    obtain ⟨rfl, repeated⟩ := RoundingInput.repeated_of_fault known shape refused
    exact Or.inl ⟨rfl, repeated, rfl⟩
  · rename_i accepted
    obtain ⟨sameLength, once, -⟩ := RoundingInput.accepted accepted
    split at failed
    · rename_i placing
      cases failed
      obtain ⟨cause, row, listed, refused⟩ :=
        RoundingPlan.place_all_fault wellFormed.names_distinct known placing
      exact Or.inr (Or.inl ⟨cause, row.2, (List.of_mem_zip listed).2, refused⟩)
    · rename_i placed assignments placing
      have rehosted := plan.place_all_rehosted _ s placed assignments wellFormed.names_distinct
        ((RoundingInput.row_names sameLength).symm ▸ once) placing
      have keepsRest := (place_all_keeps_rest plan wellFormed placing).2
      have tolerance : placed.topology.tieTolerance = s.topology.tieTolerance := by rw [keepsRest]
      have assigned : ∀ service node, Assignments.nodeOf? ⟨assignments⟩ service = some node →
          node ∈ placed.topology.nodeNames := by
        intro service node hosted
        rw [rehosted.names]
        exact known node (rehosted.listed service node (Assignments.assigned_entry hosted))
      dsimp only at failed
      generalize routed : placed.topology.routeDemands input.demands ⟨assignments⟩ input.weight =
        result at failed
      obtain ⟨t, answer⟩ := result
      cases answer with
      | ok routing => cases failed
      | error fault' =>
          cases failed
          have fails := Topology.route_from_fault assigned routed
          exact Or.inr (Or.inr (fails.of_same_nodes rehosted.names tolerance))

/-! ## Runs -/

omit [Summation α] [PathChoice α] in
theorem Settings.start_keeps_layout (settings : Settings α) (t : Topology α) :
    (settings.start t).resetUsage = t.resetUsage ∧
      (settings.start t).tieTolerance = t.tieTolerance := by
  unfold Settings.start
  split_ifs
  · exact ⟨t.reset_twice, rfl⟩
  · exact ⟨rfl, rfl⟩

def answering {α : Type} (point : List α) (admits : Nat → List α → Bool) : Planner α Unit Unit where
  solver := ⟨fun _ => .solved point, fun _ => .stopped⟩
  sampler := {
    ofSeed? := fun seed => if seed < 0 then none else some ()
    draw := fun _ => ((), ())
    admits := admits
    pick := fun _ _ => 0 }
  unseeded := ()

def usualSettings {α : Type} [Quantity α] (seed : Int) (resetUsage : Bool) : Settings α :=
  ⟨some seed, .highs, 0, .latency, resetUsage, false, none⟩

def triangleWorkload : Workload Rat where
  services := [⟨"s", 1, 0, 0, 0, 0, 0⟩, ⟨"t", 0, 1, 0, 0, 0, 0⟩]
  demands := [⟨"s", "t", 1⟩]

def hostingNode (usage : Resources Rat) (hosted : List String) : Topology Rat where
  nodes := [⟨"a", ⟨10, 10, 0, 0⟩, usage, hosted⟩]
  links := []
  canonical := [("a", "a")]
  tieTolerance := 0

end EdgePlacement
