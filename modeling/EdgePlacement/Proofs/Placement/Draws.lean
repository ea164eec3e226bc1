import Mathlib.Logic.Function.Iterate
import EdgePlacement.Proofs.Placement.Maximality
import EdgePlacement.Proofs.Placement.Sampling
import EdgePlacement.Proofs.Placement.Turns

/-!
# Draws

A service takes one draw when its weights have a mass, and none otherwise. A node that refuses it,
the candidates after that and the demands take no more. So the matrix and the generator settle what
is drawn for which service, whatever comes of the draws.
-/

namespace EdgePlacement

set_option autoImplicit false

variable {α σ δ : Type} [Quantity α]

namespace Sampler

omit [Quantity α] in
def afterDraws (sampler : Sampler α σ δ) (count : Nat) (g : σ) : σ :=
  (fun g => (sampler.draw g).2)^[count] g

variable [Summation α]

/-- The column sampled for each row, none for a row without mass. -/
def columns (sampler : Sampler α σ δ) (tolerance : α) : List (List α) → σ → List (Option Nat)
  | [], _ => []
  | weights :: rest, g =>
    if Massless tolerance weights then none :: columns sampler tolerance rest g
    else some (sampler.sampled weights g) :: columns sampler tolerance rest (sampler.draw g).2

/-- What a service takes from the generator: nothing, and its candidates come by load, or one draw,
and the sampled column is the first of its candidates. -/
inductive Draws (sampler : Sampler α σ δ) (tolerance : α) (weights : List α)
    (nodes : List (Node α)) (g : σ) : Option Nat → σ → Prop where
  | undrawn (massless : Massless tolerance weights)
      (order : candidateOrder sampler weights nodes tolerance g = (.ok (Node.byLoad nodes), g)) :
      Draws sampler tolerance weights nodes g none g
  | drawn (later : List (Node α)) (massive : ¬ Massless tolerance weights)
      (order : candidateOrder sampler weights nodes tolerance g =
        (.ok (nodes[sampler.sampled weights g]?.toList ++ later), (sampler.draw g).2)) :
      Draws sampler tolerance weights nodes g (some (sampler.sampled weights g))
        (sampler.draw g).2

theorem draws_of_order {sampler : Sampler α σ δ} {tolerance : α} {weights : List α}
    {nodes candidates : List (Node α)} {g g' : σ}
    (order : candidateOrder sampler weights nodes tolerance g = (.ok candidates, g')) :
    ∃ column, sampler.Draws tolerance weights nodes g column g' ∧
      ∀ rest, sampler.columns tolerance (weights :: rest) g =
        column :: sampler.columns tolerance rest g' := by
  by_cases massless : Massless tolerance weights
  · have byLoad : candidateOrder sampler weights nodes tolerance g = (.ok (Node.byLoad nodes), g) :=
      massless_order massless g
    have same := byLoad.symm.trans order
    cases same
    exact ⟨none, .undrawn massless byLoad, fun rest => if_pos massless⟩
  · have admitted : sampler.admits nodes.length (sharesOf weights) = true := by
      rw [← Bool.not_eq_false]
      intro refused
      have failed := refused_order massless refused g
      cases failed.symm.trans order
    have bySample := massive_order massless admitted g
    have same := bySample.symm.trans order
    cases same
    unfold completeOrder at bySample
    dsimp only at bySample
    rw [List.append_assoc] at bySample
    exact ⟨some (sampler.sampled weights g), .drawn _ massless bySample,
      fun rest => if_neg massless⟩

theorem Draws.count {sampler : Sampler α σ δ} {tolerance : α} {weights : List α}
    {nodes : List (Node α)} {g g' : σ} {column : Option Nat}
    (draws : sampler.Draws tolerance weights nodes g column g') (rest : List (List α)) :
    sampler.afterDraws ((weights :: rest).countP fun weights => ¬ Massless tolerance weights) g =
      sampler.afterDraws (rest.countP fun weights => ¬ Massless tolerance weights) g' := by
  cases draws with
  | undrawn massless => rw [List.countP_cons_of_neg (by simpa using massless)]
  | drawn later massive =>
      rw [List.countP_cons_of_pos (by simpa using massive)]
      exact Function.iterate_succ_apply _ _ g

end Sampler

namespace RoundingPlan

variable [Summation α] {plan : RoundingPlan α σ δ}

theorem place_draws {service : Service α} {weights : List α} {s s' : RoundingState α σ}
    {host : Option String} (placed : plan.place service weights s = (s', .ok host)) :
    ∃ column,
      plan.sampler.Draws plan.tolerance weights
        (plan.nodes (s.topology.undeployEverywhere service)) s.generator column s'.generator ∧
      ∀ rest, plan.sampler.columns plan.tolerance (weights :: rest) s.generator =
        column :: plan.sampler.columns plan.tolerance rest s'.generator := by
  have outcome := plan.place_outcome service weights s
  rw [placed] at outcome
  cases outcome with
  | placed before after n n' g order passed fits => exact Sampler.draws_of_order order
  | unplaced candidates g order full => exact Sampler.draws_of_order order

theorem place_all_draws {rows : List (Service α × List α)} {s s' : RoundingState α σ}
    {assignments : List (String × Option String)}
    (placed : plan.placeAll rows s = (s', .ok assignments)) {position : Nat} {service : Service α}
    {weights : List α} (listed : rows[position]? = some (service, weights)) :
    ∃ column,
      (plan.sampler.columns plan.tolerance (rows.map (·.2)) s.generator)[position]? =
        some column ∧
      plan.sampler.Draws plan.tolerance weights
        (plan.nodes ((plan.placeAll (rows.take position) s).1.topology.undeployEverywhere service))
        (plan.placeAll (rows.take position) s).1.generator column
        (plan.placeAll (rows.take (position + 1)) s).1.generator := by
  induction rows generalizing s assignments position with
  | nil => cases listed
  | cons row rest ih =>
      obtain ⟨service', weights'⟩ := row
      obtain ⟨between, host, later, first, afterwards, rfl⟩ := place_all_cons placed
      obtain ⟨column, draws, columns⟩ := place_draws first
      rw [List.map_cons, columns, List.take_succ_cons, place_all_state first]
      cases position with
      | zero =>
          cases listed
          exact ⟨column, rfl, draws⟩
      | succ position =>
          rw [List.take_succ_cons, place_all_state first, List.getElem?_cons_succ]
          exact ih afterwards listed

theorem place_all_draw_count {rows : List (Service α × List α)} {s s' : RoundingState α σ}
    {assignments : List (String × Option String)}
    (placed : plan.placeAll rows s = (s', .ok assignments)) :
    s'.generator = plan.sampler.afterDraws
      ((rows.map (·.2)).countP fun weights => ¬ Massless plan.tolerance weights)
      s.generator := by
  induction rows generalizing s assignments with
  | nil =>
      cases placed
      rfl
  | cons row rest ih =>
      obtain ⟨service, weights⟩ := row
      obtain ⟨between, host, later, first, afterwards, rfl⟩ := place_all_cons placed
      obtain ⟨column, draws, -⟩ := place_draws first
      rw [List.map_cons, draws.count, ih afterwards]

/-- What a rounding takes from the generator: for each service in its turn the column of its row,
and altogether as many draws as there are rows with a mass. -/
structure Samples (plan : RoundingPlan α σ δ) (input : RoundingInput α)
    (s s' : RoundingState α σ) (columns : List (Option Nat)) : Prop where
  turn : ∀ (position : Nat) (service : Service α) (weights : List α),
    input.services[position]? = some service → input.fractions.rows[position]? = some weights →
    ∃ column, columns[position]? = some column ∧
      plan.sampler.Draws plan.tolerance weights
        (plan.nodes ((plan.stateAtTurn input s position).topology.undeployEverywhere service))
        (plan.stateAtTurn input s position).generator column
        (plan.stateAtTurn input s (position + 1)).generator
  count : s'.generator = plan.sampler.afterDraws
    (input.fractions.rows.countP fun weights => ¬ Massless plan.tolerance weights) s.generator

end RoundingPlan

variable [Summation α] [PathChoice α]

theorem round_samples {plan : RoundingPlan α σ δ} {input : RoundingInput α}
    {s s' : RoundingState α σ} {placement : Placement α}
    (returned : roundFractions plan input s = (s', .ok placement)) :
    plan.Samples input s s'
      (plan.sampler.columns plan.tolerance input.fractions.rows s.generator) := by
  obtain ⟨accepted, placed, assignments, routing, placing, -, -⟩ := round_returned returned
  have sameLength := (RoundingInput.accepted accepted).1
  have rows : (input.services.zip input.fractions.rows).map (·.2) = input.fractions.rows :=
    List.map_snd_zip sameLength.le
  have generator := (round_keeps_placed accepted).generator
  rw [returned, placing] at generator
  constructor
  · intro position service weights listed weighed
    have row : (input.services.zip input.fractions.rows)[position]? = some (service, weights) :=
      List.getElem?_zip_eq_some.mpr ⟨listed, weighed⟩
    have turn := RoundingPlan.place_all_draws placing row
    rwa [rows] at turn
  · have count := RoundingPlan.place_all_draw_count placing
    rw [rows] at count
    exact generator.trans count

/-- Draws do not depend on outcomes: two roundings of one matrix from one state of one generator
sample the same column for each row and leave the generator in the same state, after one draw for
each row with a mass, however their services, nodes, links and demands differ. As many nodes are
listed in both, since they are the columns of the matrix. -/
theorem draws_ignore_outcomes (sampler : Sampler α σ δ) (tolerance : α) (fractions : Fractions α)
    (g : σ) (nodeNames nodeNames' : List String) (services services' : List (Service α))
    (demands demands' : List (Demand α)) (weight weight' : String) (t t' : Topology α)
    (s s' : RoundingState α σ) (placement placement' : Placement α)
    (returned : roundFractions ⟨sampler, nodeNames, tolerance⟩
      ⟨fractions, services, demands, weight⟩ ⟨t, g⟩ = (s, .ok placement))
    (returned' : roundFractions ⟨sampler, nodeNames', tolerance⟩
      ⟨fractions, services', demands', weight'⟩ ⟨t', g⟩ = (s', .ok placement')) :
    RoundingPlan.Samples ⟨sampler, nodeNames, tolerance⟩ ⟨fractions, services, demands, weight⟩
      ⟨t, g⟩ s (sampler.columns tolerance fractions.rows g) ∧
    RoundingPlan.Samples ⟨sampler, nodeNames', tolerance⟩ ⟨fractions, services', demands', weight'⟩
      ⟨t', g⟩ s' (sampler.columns tolerance fractions.rows g) ∧
    s.generator = s'.generator := by
  have samples := round_samples returned
  have samples' := round_samples returned'
  exact ⟨samples, samples', samples.count.trans samples'.count.symm⟩

def mixedRows : Fractions Rat :=
  ⟨2, [[1 / 2, 1 / 2], [-1, 0], [1 / 4, 3 / 4]]⟩

def unlinkedPair : Topology Rat where
  nodes := [Node.fresh "x" ⟨4, 4, 0, 0⟩, Node.fresh "y" ⟨8, 8, 0, 0⟩]
  links := []
  canonical := [("x", "x"), ("y", "y")]
  tieTolerance := 0

def largeServices : List (Service Rat) :=
  [⟨"p", 1, 1, 0, 0, 0, 0⟩, ⟨"q", 5, 5, 0, 0, 0, 0⟩, ⟨"r", 5, 5, 0, 0, 0, 0⟩]

def unlinkedPairAfter : Topology Rat :=
  { unlinkedPair with
    nodes := [Node.fresh "x" ⟨4, 4, 0, 0⟩, ⟨"y", ⟨8, 8, 0, 0⟩, ⟨6, 6, 0, 0⟩, ["p", "q"]⟩] }

/-- The first service finds both nodes full in one run and the last one in the other. -/
theorem unlike_pairs_sample_alike :
    RoundingPlan.Samples ⟨Sampler.ofEighths, ["a", "b"], 1 / 8⟩
      ⟨mixedRows, threeServices.services, threeServices.demands, "latency"⟩ ⟨fullPair, 0⟩
      ⟨fullPair, 2⟩ [some 0, none, some 1] ∧
    RoundingPlan.Samples ⟨Sampler.ofEighths, ["y", "x"], 1 / 8⟩
      ⟨mixedRows, largeServices, [], "hops"⟩ ⟨unlinkedPair, 0⟩ ⟨unlinkedPairAfter, 2⟩
      [some 0, none, some 1] := by
  have columns : Sampler.ofEighths.columns (1 / 8) mixedRows.rows 0 = [some 0, none, some 1] := by
    decide +kernel
  obtain ⟨samples, samples', -⟩ := draws_ignore_outcomes Sampler.ofEighths (1 / 8) mixedRows 0
    ["a", "b"] ["y", "x"] threeServices.services largeServices threeServices.demands []
    "latency" "hops" fullPair unlinkedPair ⟨fullPair, 2⟩ ⟨unlinkedPairAfter, 2⟩
    ⟨⟨[("s", none), ("t", some "a"), ("u", some "b")]⟩, ⟨[]⟩,
      [⟨"s", PlacementFailure.noCapacity⟩],
      [⟨0, ⟨"s", "t", 1⟩, RoutingFailure.endpointUnplaced⟩,
        ⟨1, ⟨"t", "s", 1⟩, RoutingFailure.endpointUnplaced⟩]⟩
    ⟨⟨[("p", some "y"), ("q", some "y"), ("r", none)]⟩, ⟨[]⟩,
      [⟨"r", PlacementFailure.noCapacity⟩], []⟩
    (by cbv) (by cbv)
  rw [columns] at samples samples'
  exact ⟨samples, samples'⟩

end EdgePlacement
