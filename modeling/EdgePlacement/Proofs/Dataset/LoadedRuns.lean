import Mathlib.Algebra.Order.Field.Rat
import EdgePlacement.Proofs.Dataset.Ingestion
import EdgePlacement.Proofs.ForgottenPast
import EdgePlacement.Proofs.Placement.Sampling

/-!
# Runs on loaded datasets

On a dataset that has been loaded nothing but the relaxation can fail: the names of its services are
distinct, the fractions have a row for each service and a column for each node, rows with a mass are
made into distributions, services are assigned to nodes of the topology, and latencies are compared
with a tolerance that is not below zero.
-/

namespace EdgePlacement

open EdgePlacement.Decimal

set_option autoImplicit false

variable {σ δ : Type}

/-- What a run relies on: the solver takes data that are numbers, the generator takes seeds that are
not below zero, and the sampler takes distributions. -/
structure Planner.Reliable (planner : Planner Rat σ δ) : Prop where
  matrix : ∀ program, planner.solver.matrix program ≠ .unusable
  named : ∀ program, planner.solver.named program ≠ .unusable
  seeds : ∀ seed, 0 ≤ seed → planner.sampler.ofSeed? seed ≠ none
  distributions : ∀ shares : List Rat, (∀ share ∈ shares, 0 ≤ share) → shares.sum = 1 →
    planner.sampler.admits shares.length shares = true

theorem Planner.Reliable.asked {planner : Planner Rat σ δ} (reliable : planner.Reliable)
    (r : Relaxation Rat) (backend : Backend) : r.ask planner.solver backend ≠ .unusable := by
  intro unusable
  cases backend with
  | highs => exact reliable.matrix _ (SolverAnswer.map_unusable unusable)
  | pulp => exact reliable.named _ (SolverAnswer.map_unusable unusable)

/-! ## Weights -/

/-- No row of the right length is refused. -/
theorem Planner.Reliable.shares_admitted {planner : Planner Rat σ δ} (reliable : planner.Reliable)
    {nodeNames : List String} {tolerance : Rat} (tolerant : 0 ≤ tolerance) {weights : List Rat}
    (width : weights.length = nodeNames.length) :
    ¬ (⟨planner.sampler, nodeNames, tolerance⟩ : RoundingPlan Rat σ δ).SharesRefused weights := by
  rintro ⟨massive, refused⟩
  obtain ⟨notBelow, whole⟩ := shares_are_distribution (tolerant.trans_lt (not_le.mp massive))
  have admitted := reliable.distributions (sharesOf weights) notBelow whole
  have length : (sharesOf weights).length = nodeNames.length := by
    simp [sharesOf, width]
  rw [length, refused] at admitted
  cases admitted

/-! ## Runs -/

theorem settled_tolerance {request : SettingsRequest Rat} {settings : Settings Rat}
    (accepted : request.settle = .ok settings) :
    0 ≤ settings.tolerance ∧ settings.seed = request.seed := by
  unfold SettingsRequest.settle at accepted
  split at accepted
  · cases accepted
  · cases accepted
  · split_ifs at accepted with below
    cases accepted
    exact ⟨not_lt.mp below, rfl⟩

theorem Planner.Reliable.rounding_returns {planner : Planner Rat σ δ} (reliable : planner.Reliable)
    {t : Topology Rat} (wellFormed : t.WellFormed) (ties : 0 ≤ t.tieTolerance)
    (workload : Workload Rat) (distinct : (workload.services.map (·.name)).Nodup)
    {settings : Settings Rat} (tolerant : 0 ≤ settings.tolerance) {relaxation : Relaxation Rat}
    {solution : RelaxationSolution Rat}
    (relaxed : planner.relax t workload.services settings = .ok (relaxation, solution)) (g : σ) :
    ∃ s' placement, roundFractions
      (⟨planner.sampler, relaxation.nodeNames, settings.tolerance⟩ : RoundingPlan Rat σ δ)
      ⟨solution.fractions, workload.services, workload.demands, settings.weight.name⟩
      ⟨settings.start t, g⟩ = (s', .ok placement) := by
  generalize rounding : roundFractions (α := Rat) _ _ _ = ending
  obtain ⟨s', answer⟩ := ending
  cases answer with
  | ok placement => exact ⟨s', placement, rfl⟩
  | error fault =>
      obtain ⟨layout, tolerance⟩ := settings.start_keeps_layout t
      have names := relaxation_node_names relaxed
      have known : ∀ name ∈ relaxation.nodeNames, name ∈ (settings.start t).nodeNames := by
        rw [names, Topology.same_layout_node_names layout]
        exact fun _ member => member
      have shape := relaxed_shape relaxed
      rw [← names] at shape
      rcases round_refusal (wellFormed.of_same_layout layout) known shape rounding with
        ⟨-, repeated, -⟩ | ⟨-, weights, listed, refused⟩ | fails
      · exact absurd distinct repeated
      · have width := relaxed_rows relaxed weights listed
        rw [← names] at width
        exact absurd refused (reliable.shares_admitted tolerant width)
      · exact absurd fails (Topology.exact_search_does_not_fail (Or.inr (tolerance ▸ ties)) fault)

/-- A run on a loaded dataset makes a plan, or the relaxation fails with a fault of the domain and
leaves everything as it was. -/
theorem loaded_run_plans_or_fails_in_domain [CellReading Rat] {planner : Planner Rat σ δ}
    (reliable : planner.Reliable) {folder : Folder} {unseeded : Random.MersenneTwister}
    {drawn : Option Int} {data : Dataset Rat}
    (loaded : Dataset.load folder unseeded drawn = .ok data) {request : SettingsRequest Rat}
    {settings : Settings Rat} (accepted : request.settle = .ok settings) {seed : Int}
    (seeded : request.seed = some seed) (notBelow : 0 ≤ seed) (skippedRecords : Nat) :
    (∃ plan, (planner.run data.topology ⟨data.services, data.demands⟩ settings
      skippedRecords).2 = .ok plan) ∨
    ∃ fault : Fault Rat, planner.run data.topology ⟨data.services, data.demands⟩ settings
      skippedRecords = (data.topology, .error fault) ∧ fault.OfDomain := by
  obtain ⟨tables, -, made⟩ := Dataset.load_makes loaded
  obtain ⟨tolerant, sameSeed⟩ := settled_tolerance accepted
  have ties : 0 ≤ data.topology.tieTolerance := by
    rw [made.tolerance]
    decide +kernel
  cases relaxed : planner.relax data.topology data.services settings with
  | error fault =>
      right
      refine ⟨fault, Planner.run_unrelaxed relaxed, ?_⟩
      rcases relaxing_fault_cases relaxed with ofDomain | ⟨relaxation, unusable, -⟩
      · exact ofDomain
      · exact absurd unusable (reliable.asked relaxation settings.backend)
  | ok relaxed' =>
      obtain ⟨relaxation, solution⟩ := relaxed'
      left
      obtain ⟨g, generated⟩ := Option.ne_none_iff_exists'.mp (reliable.seeds seed notBelow)
      have seeding : planner.generator settings = .ok g := by
        simp only [Planner.generator, sameSeed, seeded, generated]
      obtain ⟨s', placement, rounded⟩ := reliable.rounding_returns made.topology.wellFormed ties
        ⟨data.services, data.demands⟩ made.services_kept.distinct tolerant relaxed g
      unfold Settings.start at rounded
      simp only [Planner.run, relaxed, seeding, rounded]
      exact ⟨_, rfl⟩

theorem answering_is_reliable (point : List Rat) :
    (answering point Sampler.shareTest).Reliable where
  matrix := nofun
  named := nofun
  seeds seed notBelow := by
    change (if seed < 0 then none else some ()) ≠ none
    rw [if_neg (not_lt.mpr notBelow)]
    nofun
  distributions _ := share_test_of_distribution

theorem mixed_folder_run_makes_plan :
    ∃ (data : Dataset Rat) (settings : Settings Rat) (plan : Plan Rat),
      Dataset.load Dataset.mixedFolder (Random.MersenneTwister.ofSeed 0) none = .ok data ∧
      SettingsRequest.defaults.settle = .ok settings ∧
      ((answering [1, 1] Sampler.shareTest).run data.topology ⟨data.services, data.demands⟩
        settings data.skipped).2 = .ok plan := by
  have outcome : ((Dataset.load (α := Rat) Dataset.mixedFolder
      (Random.MersenneTwister.ofSeed 0) none).toOption.bind fun data =>
      SettingsRequest.defaults.settle.toOption.map fun settings =>
        ((answering [1, 1] Sampler.shareTest).run data.topology ⟨data.services, data.demands⟩
          settings data.skipped).2.isOk) = some true := by
    decide +kernel
  obtain ⟨data, found, later⟩ := Option.bind_eq_some_iff.mp outcome
  obtain ⟨settings, understood, made⟩ := Option.map_eq_some_iff.mp later
  have loaded := to_option_eq_some_iff.mp found
  have accepted := to_option_eq_some_iff.mp understood
  rcases loaded_run_plans_or_fails_in_domain (answering_is_reliable [1, 1]) loaded accepted rfl
      (by decide) data.skipped with ⟨plan, returned⟩ | ⟨fault, failed, -⟩
  · exact ⟨data, settings, plan, loaded, accepted, returned⟩
  · rw [failed] at made
    cases made

end EdgePlacement
