import EdgePlacement.Proofs.Network.Charges
import EdgePlacement.Proofs.Paths.SimplePaths

/-!
# Demands in their turn

What a demand can come to when its turn comes, and what a list of demands comes to: a sequence of
single outcomes, each in the counters that the demands before it have left.
-/

namespace EdgePlacement

set_option autoImplicit false

variable {α : Type}

/-! ## What is collected -/

def RouteOutcome.collect : Int → List (Demand α) → List RouteOutcome → Routing α
  | index, demand :: rest, outcome :: outcomes =>
    Topology.Routing.add index demand outcome (collect (index + 1) rest outcomes)
  | _, _, _ => ⟨[], []⟩

namespace RouteOutcome

theorem mem_collect_routes_iff (start : Int) (demands : List (Demand α))
    (outcomes : List RouteOutcome) (paired : outcomes.length = demands.length)
    (route : Int × List String) :
    route ∈ (collect start demands outcomes).routes ↔
      ∃ i : Nat, ∃ ids, outcomes[i]? = some (.routed ids) ∧ route = (start + i, ids) := by
  induction demands generalizing start outcomes with
  | nil => simp [collect, List.length_eq_zero_iff.mp paired]
  | cons demand rest ih =>
      cases outcomes with
      | nil => simp at paired
      | cons outcome outcomes =>
          have later := ih (start + 1) outcomes (Nat.succ.inj paired)
          have shift : ∀ i : Nat, start + 1 + (i : Int) = start + (i + 1) := by omega
          rw [← Nat.or_exists_add_one]
          cases outcome with
          | routed ids => simp [collect, Topology.Routing.add, later, shift, eq_comm]
          | failed reason => simp [collect, Topology.Routing.add, later, shift]

theorem mem_collect_failures_iff (start : Int) (demands : List (Demand α))
    (outcomes : List RouteOutcome) (failure : RoutingFailure α) :
    failure ∈ (collect start demands outcomes).failures ↔
      ∃ i : Nat, ∃ demand reason, demands[i]? = some demand ∧
        outcomes[i]? = some (.failed reason) ∧ failure = ⟨start + i, demand, reason⟩ := by
  induction demands generalizing start outcomes with
  | nil => simp [collect]
  | cons demand rest ih =>
      cases outcomes with
      | nil => simp [collect]
      | cons outcome outcomes =>
          have later := ih (start + 1) outcomes
          have shift : ∀ i : Nat, start + 1 + (i : Int) = start + (i + 1) := by omega
          rw [← Nat.or_exists_add_one]
          cases outcome with
          | routed ids => simp [collect, Topology.Routing.add, later, shift]
          | failed reason => simp [collect, Topology.Routing.add, later, shift, eq_comm]

theorem route_collected_iff {demands : List (Demand α)} {outcomes : List RouteOutcome}
    (paired : outcomes.length = demands.length) (i : Nat) (ids : List String) :
    ((i : Int), ids) ∈ (collect 0 demands outcomes).routes ↔ outcomes[i]? = some (.routed ids) := by
  rw [mem_collect_routes_iff 0 demands outcomes paired]
  constructor
  · rintro ⟨j, ids', outcome, same⟩
    obtain ⟨position, rfl⟩ := Prod.mk.inj same
    have samePosition : i = j := by omega
    rw [samePosition, outcome]
  · intro outcome
    exact ⟨i, ids, outcome, by rw [zero_add]⟩

theorem failure_collected_iff {demands : List (Demand α)} {outcomes : List RouteOutcome} {i : Nat}
    {demand : Demand α} (listed : demands[i]? = some demand) (reason : String) :
    ⟨i, demand, reason⟩ ∈ (collect 0 demands outcomes).failures ↔
      outcomes[i]? = some (.failed reason) := by
  rw [mem_collect_failures_iff]
  constructor
  · rintro ⟨j, demand', reason', -, outcome, same⟩
    obtain ⟨position, -, rfl⟩ := RoutingFailure.mk.inj same
    have samePosition : i = j := by omega
    rw [samePosition, outcome]
  · intro outcome
    exact ⟨i, demand, reason, listed, outcome, by rw [zero_add]⟩

theorem position_failed_iff {demands : List (Demand α)} {outcomes : List RouteOutcome} {i : Nat}
    {demand : Demand α} (listed : demands[i]? = some demand) :
    (∃ failure ∈ (collect 0 demands outcomes).failures, failure.index = i) ↔
      ∃ reason, outcomes[i]? = some (.failed reason) := by
  constructor
  · rintro ⟨failure, member, position⟩
    obtain ⟨j, _, reason, -, outcome, rfl⟩ :=
      (mem_collect_failures_iff 0 demands outcomes failure).mp member
    have samePosition : i = j := by
      dsimp only at position
      omega
    exact ⟨reason, samePosition ▸ outcome⟩
  · rintro ⟨reason, outcome⟩
    exact ⟨_, (failure_collected_iff listed reason).mpr outcome, rfl⟩

theorem collect_routes_ascend (start : Int) (demands : List (Demand α))
    (outcomes : List RouteOutcome) (paired : outcomes.length = demands.length) :
    (collect start demands outcomes).routes.Pairwise (·.1 < ·.1) := by
  induction demands generalizing start outcomes with
  | nil => exact .nil
  | cons demand rest ih =>
      cases outcomes with
      | nil => exact .nil
      | cons outcome outcomes =>
          have pairedRest := Nat.succ.inj paired
          cases outcome with
          | failed reason => exact ih (start + 1) outcomes pairedRest
          | routed ids =>
              apply List.Pairwise.cons _ (ih (start + 1) outcomes pairedRest)
              intro route member
              obtain ⟨i, _, -, rfl⟩ :=
                (mem_collect_routes_iff (start + 1) rest outcomes pairedRest route).mp member
              dsimp only
              omega

theorem collect_failures_ascend (start : Int) (demands : List (Demand α))
    (outcomes : List RouteOutcome) :
    (collect start demands outcomes).failures.Pairwise (·.index < ·.index) := by
  induction demands generalizing start outcomes with
  | nil => exact .nil
  | cons demand rest ih =>
      cases outcomes with
      | nil => exact .nil
      | cons outcome outcomes =>
          cases outcome with
          | routed ids => exact ih (start + 1) outcomes
          | failed reason =>
              apply List.Pairwise.cons _ (ih (start + 1) outcomes)
              intro failure member
              obtain ⟨i, _, _, -, -, rfl⟩ :=
                (mem_collect_failures_iff (start + 1) rest outcomes failure).mp member
              dsimp only
              omega

end RouteOutcome

/-! ## Single demands -/

variable [Quantity α]

structure Demand.Between (demand : Demand α) (assignments : Assignments) (a b : String) : Prop where
  source : assignments.nodeOf? demand.source = some a
  target : assignments.nodeOf? demand.target = some b

variable [PathChoice α]

/-- What a demand comes to, and the counters that it leaves. -/
inductive DemandStep (t : Topology α) (assignments : Assignments) (weight : String)
    (demand : Demand α) : Topology α → RouteOutcome → Prop where
  | unplaced
      (missing : assignments.nodeOf? demand.source = none ∨
        assignments.nodeOf? demand.target = none) :
      DemandStep t assignments weight demand t (.failed RoutingFailure.endpointUnplaced)
  | apart (a b : String) (hosts : demand.Between assignments a b)
      (found : t.findPath a b weight = .ok none) :
      DemandStep t assignments weight demand t (.failed RoutingFailure.noPath)
  | refused (a b : String) (path : List (Link α)) (hosts : demand.Between assignments a b)
      (found : t.findPath a b weight = .ok (some path))
      (full : ¬ path.all (Link.hasRoom demand.bandwidth) = true) :
      DemandStep t assignments weight demand
        (t.discharged ((Link.takenAlong path demand.bandwidth).map (·.id)) demand.bandwidth)
        (.failed RoutingFailure.insufficientBandwidth)
  | routed (a b : String) (path : List (Link α)) (hosts : demand.Between assignments a b)
      (found : t.findPath a b weight = .ok (some path))
      (room : path.all (Link.hasRoom demand.bandwidth) = true) :
      DemandStep t assignments weight demand
        (t.charged (path.map (·.id)) demand.bandwidth) (.routed (path.map (·.id)))

namespace Topology

variable {t t' : Topology α} {assignments : Assignments} {weight : String}

theorem found_path_links (wellFormed : t.WellFormed) {a b : String} {path : List (Link α)}
    (found : t.findPath a b weight = .ok (some path)) :
    (∀ l ∈ path, l ∈ t.links) ∧ (path.map (·.id)).Nodup := by
  obtain ⟨names, trail, simple⟩ := found_path_is_simple_trail wellFormed found
  refine ⟨fun l member => ?_, simple_trail_ids_distinct wellFormed trail simple⟩
  obtain ⟨_, -, _, -, carried⟩ := trail.carries_taken member
  exact (preferred_link_between carried).1

theorem route_demand_step (wellFormed : t.WellFormed) {demand : Demand α} {outcome : RouteOutcome}
    (routed : t.routeDemand assignments weight demand = (t', .ok outcome)) :
    DemandStep t assignments weight demand t' outcome := by
  unfold routeDemand at routed
  split at routed
  · rename_i a b source target
    split at routed
    · cases routed
    · rename_i found
      cases routed
      exact .apart a b ⟨source, target⟩ found
    · rename_i path found
      obtain ⟨stored, distinct⟩ := found_path_links wellFormed found
      rw [reserve_path_eq wellFormed demand.bandwidth path stored distinct] at routed
      by_cases room : path.all (Link.hasRoom demand.bandwidth) = true
      · rw [if_pos room] at routed
        cases routed
        exact .routed a b path ⟨source, target⟩ found room
      · rw [if_neg room] at routed
        cases routed
        exact .refused a b path ⟨source, target⟩ found room
  · rename_i unplaced
    cases routed
    refine .unplaced ?_
    by_contra placed
    obtain ⟨source, target⟩ := not_or.mp placed
    obtain ⟨a, atSource⟩ := Option.ne_none_iff_exists'.mp source
    obtain ⟨b, atTarget⟩ := Option.ne_none_iff_exists'.mp target
    exact unplaced a b atSource atTarget

theorem demand_step_keeps_layout {demand : Demand α} {outcome : RouteOutcome}
    (step : DemandStep t assignments weight demand t' outcome) :
    t'.resetUsage = t.resetUsage := by
  cases step with
  | unplaced => rfl
  | apart => rfl
  | refused => exact t.discharged_keeps_layout _ _
  | routed => exact t.charged_keeps_layout _ _

end Topology

/-! ## Lists of demands -/

/-- Demands that are routed one after the other, each with its outcome. -/
inductive DemandRun (assignments : Assignments) (weight : String) :
    Topology α → List (Demand α) → List RouteOutcome → Topology α → Prop where
  | done (t : Topology α) : DemandRun assignments weight t [] [] t
  | next {t between t' : Topology α} {demand : Demand α} {rest : List (Demand α)}
      {outcome : RouteOutcome} {outcomes : List RouteOutcome}
      (step : t.routeDemand assignments weight demand = (between, .ok outcome))
      (later : DemandRun assignments weight between rest outcomes t') :
      DemandRun assignments weight t (demand :: rest) (outcome :: outcomes) t'

namespace Topology

variable {assignments : Assignments} {weight : String}

theorem route_from_run {t t' : Topology α} {index : Int} {demands : List (Demand α)}
    {routing : Routing α}
    (returned : routeFrom assignments weight index demands t = (t', .ok routing)) :
    ∃ outcomes, DemandRun assignments weight t demands outcomes t' ∧
      routing = RouteOutcome.collect index demands outcomes := by
  induction demands generalizing t index routing with
  | nil =>
      cases returned
      exact ⟨[], .done _, rfl⟩
  | cons demand rest ih =>
      unfold routeFrom at returned
      split at returned
      · cases returned
      · rename_i between outcome step
        dsimp only at returned
        generalize onward : routeFrom assignments weight (index + 1) rest between = result
          at returned
        obtain ⟨last, final⟩ := result
        cases final with
        | error fault => cases returned
        | ok later =>
            cases returned
            obtain ⟨outcomes, run, rfl⟩ := ih onward
            exact ⟨outcome :: outcomes, .next step run, rfl⟩

/-- The counters that demands have left when they have been routed in their order. -/
def afterDemands (t : Topology α) (demands : List (Demand α)) (assignments : Assignments)
    (weight : String) : Topology α :=
  (t.routeDemands demands assignments weight).1

end Topology

namespace DemandRun

variable {assignments : Assignments} {weight : String} {t t' : Topology α}
  {demands : List (Demand α)} {outcomes : List RouteOutcome}

theorem route_from_eq (run : DemandRun assignments weight t demands outcomes t') (index : Int) :
    Topology.routeFrom assignments weight index demands t =
      (t', .ok (RouteOutcome.collect index demands outcomes)) := by
  induction run generalizing index with
  | done t => rfl
  | next step _ ih =>
      unfold Topology.routeFrom
      rw [step]
      dsimp only
      rw [ih (index + 1)]
      rfl

theorem after_eq (run : DemandRun assignments weight t demands outcomes t') :
    t.afterDemands demands assignments weight = t' := by
  unfold Topology.afterDemands Topology.routeDemands
  rw [run.route_from_eq]

theorem outcome_count (run : DemandRun assignments weight t demands outcomes t') :
    outcomes.length = demands.length := by
  induction run with
  | done => rfl
  | next _ _ ih => rw [List.length_cons, List.length_cons, ih]

theorem cut (run : DemandRun assignments weight t demands outcomes t') (count : Nat) :
    ∃ between,
      DemandRun assignments weight t (demands.take count) (outcomes.take count) between ∧
      DemandRun assignments weight between (demands.drop count) (outcomes.drop count) t' := by
  induction run generalizing count with
  | done t => exact ⟨t, by simpa using .done t, by simpa using .done t⟩
  | @next t _ _ _ _ _ _ step later ih =>
      cases count with
      | zero => exact ⟨t, .done t, .next step later⟩
      | succ count =>
          obtain ⟨between, before, after⟩ := ih count
          exact ⟨between, .next step before, after⟩

theorem keeps_layout (run : DemandRun assignments weight t demands outcomes t')
    (wellFormed : t.WellFormed) : t'.resetUsage = t.resetUsage := by
  induction run with
  | done => rfl
  | next step _ ih =>
      have same := Topology.demand_step_keeps_layout (Topology.route_demand_step wellFormed step)
      rw [ih (wellFormed.of_same_layout same), same]

theorem append {between : Topology α} {rest : List (Demand α)} {later : List RouteOutcome}
    (first : DemandRun assignments weight t demands outcomes between)
    (second : DemandRun assignments weight between rest later t') :
    DemandRun assignments weight t (demands ++ rest) (outcomes ++ later) t' := by
  induction first with
  | done => exact second
  | next step _ ih => exact .next step (ih second)

theorem step_at (run : DemandRun assignments weight t demands outcomes t') {i : Nat}
    {demand : Demand α} (listed : demands[i]? = some demand) :
    ∃ outcome, outcomes[i]? = some outcome ∧
      (t.afterDemands (demands.take i) assignments weight).routeDemand assignments weight demand =
        (t.afterDemands (demands.take (i + 1)) assignments weight, .ok outcome) := by
  obtain ⟨before, first, onward⟩ := run.cut i
  obtain ⟨inside, rfl⟩ := List.getElem?_eq_some_iff.mp listed
  have inside' : i < outcomes.length := run.outcome_count ▸ inside
  rw [List.drop_eq_getElem_cons inside, List.drop_eq_getElem_cons inside'] at onward
  cases onward with
  | next step _ =>
      have upTo := first.append (.next step (.done _))
      rw [List.take_append_getElem] at upTo
      refine ⟨outcomes[i], List.getElem?_eq_getElem inside', ?_⟩
      rw [first.after_eq, upTo.after_eq, step]

end DemandRun

end EdgePlacement
