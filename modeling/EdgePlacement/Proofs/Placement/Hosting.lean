import EdgePlacement.Proofs.Placement.Placing

/-!
# One host for each service

Placing a service takes it off every node before it is put on one of them, and touches no other
service. After a rounding that returns, each listed service is therefore hosted where its assignment
says and nowhere else, from whatever hosts the rounding started.
-/

namespace EdgePlacement

open Relation

set_option autoImplicit false

variable {α σ δ : Type}

def Topology.Hosts (t : Topology α) (node service : String) : Prop :=
  ∃ n ∈ t.nodes, n.name = node ∧ n.hosts service = true

theorem Topology.hosts_iff_of_distinct {t : Topology α} (distinct : t.nodeNames.Nodup)
    {n : Node α} (member : n ∈ t.nodes) (service : String) :
    t.Hosts n.name service ↔ n.hosts service = true := by
  constructor
  · rintro ⟨m, member', named, hosted⟩
    have same : m = n := List.inj_on_of_nodup_map distinct member' member named
    exact same ▸ hosted
  · intro hosted
    exact ⟨n, member, rfl, hosted⟩

variable [Quantity α]

/-! ## Single operations -/

theorem Node.undeploy_hosts (n : Node α) (service : Service α) (name : String) :
    (n.undeploy service).hosts name = true ↔ name ≠ service.name ∧ n.hosts name = true := by
  unfold Node.undeploy Node.hosts
  split_ifs with hosted
  · simp [List.mem_filter, and_comm]
  · rw [List.contains_iff_mem] at hosted ⊢
    exact ⟨fun member => ⟨fun same => hosted (same ▸ member), member⟩, fun both => both.2⟩

theorem Node.undeploy_keeps_name (n : Node α) (service : Service α) :
    (n.undeploy service).name = n.name := by
  have kept : (n.undeploy service).reset.name = n.reset.name := by
    rw [Node.undeploy_keeps_layout]
  exact kept

theorem Node.deploy_hosts {n n' : Node α} {service : Service α}
    (fits : n.deploy? service = some n') (name : String) :
    n'.hosts name = true ↔ name = service.name ∨ n.hosts name = true := by
  rcases Node.deploy_cases fits with ⟨hosted, rfl⟩ | ⟨-, -, rfl⟩
  · exact ⟨Or.inr, fun either => either.elim (fun same => same ▸ hosted) id⟩
  · simp [Node.hosts, or_comm]

namespace Topology

theorem undeploy_everywhere_node_names (t : Topology α) (service : Service α) :
    (t.undeployEverywhere service).nodeNames = t.nodeNames := by
  unfold undeployEverywhere nodeNames
  rw [List.map_map]
  exact List.map_congr_left fun n _ => n.undeploy_keeps_name service

theorem undeploy_everywhere_hosts (t : Topology α) (service : Service α) (node name : String) :
    (t.undeployEverywhere service).Hosts node name ↔
      name ≠ service.name ∧ t.Hosts node name := by
  constructor
  · rintro ⟨n, member, named, hosted⟩
    obtain ⟨origin, stored, rfl⟩ := List.mem_map.mp member
    obtain ⟨other, before⟩ := (origin.undeploy_hosts service name).mp hosted
    exact ⟨other, origin, stored, (origin.undeploy_keeps_name service).symm.trans named, before⟩
  · rintro ⟨other, n, stored, named, hosted⟩
    exact ⟨n.undeploy service, List.mem_map_of_mem stored,
      (n.undeploy_keeps_name service).trans named,
      (n.undeploy_hosts service name).mpr ⟨other, hosted⟩⟩

omit [Quantity α] in
theorem update_node_names (t : Topology α) (n : Node α) :
    (t.updateNode n.name fun _ => n).nodeNames = t.nodeNames := by
  unfold updateNode nodeNames
  rw [List.map_map]
  refine List.map_congr_left fun m _ => ?_
  rw [Function.comp_apply]
  split_ifs with same
  · exact same.symm
  · rfl

theorem update_node_hosts {t : Topology α} {n n' : Node α} {service : Service α}
    (distinct : t.nodeNames.Nodup) (stored : n ∈ t.nodes) (fits : n.deploy? service = some n')
    (node name : String) :
    (t.updateNode n'.name fun _ => n').Hosts node name ↔
      t.Hosts node name ∨ node = n'.name ∧ name = service.name := by
  have sameName := Node.deploy_keeps_name fits
  have hosted := Node.deploy_hosts fits name
  constructor
  · rintro ⟨m, member, named, hosts⟩
    obtain ⟨origin, member', rfl⟩ := List.mem_map.mp member
    split_ifs at named hosts with replaced
    · rcases hosted.mp hosts with new | old
      · exact Or.inr ⟨named.symm, new⟩
      · exact Or.inl ⟨n, stored, sameName.symm.trans named, old⟩
    · exact Or.inl ⟨origin, member', named, hosts⟩
  · have placed : n' ∈ (t.updateNode n'.name fun _ => n').nodes :=
      List.mem_map.mpr ⟨n, stored, if_pos sameName.symm⟩
    rintro (⟨m, member, named, hosts⟩ | ⟨named, new⟩)
    · by_cases same : m.name = n'.name
      · have origin : m = n :=
          List.inj_on_of_nodup_map distinct member stored (same.trans sameName)
        exact ⟨n', placed, same.symm.trans named, hosted.mpr (Or.inr (origin ▸ hosts))⟩
      · exact ⟨m, List.mem_map.mpr ⟨m, member, if_neg same⟩, named, hosts⟩
    · exact ⟨n', placed, named.symm, hosted.mpr (Or.inl new)⟩

end Topology

/-! ## Placing -/

namespace RoundingPlan

/-- What placing one service does to the hosts: of the service itself, and of no other one. -/
structure Rehosted (plan : RoundingPlan α σ δ) (t t' : Topology α) (service : String)
    (host : Option String) : Prop where
  names : t'.nodeNames = t.nodeNames
  listed : ∀ node, host = some node → node ∈ plan.nodeNames
  hosts : ∀ node name, t'.Hosts node name ↔
    name ≠ service ∧ t.Hosts node name ∨ name = service ∧ host = some node

variable [Summation α]

theorem place_rehosted (plan : RoundingPlan α σ δ) (service : Service α) (weights : List α)
    (s s' : RoundingState α σ) (host : Option String)
    (distinct : s.topology.nodeNames.Nodup)
    (placed : plan.place service weights s = (s', .ok host)) :
    plan.Rehosted s.topology s'.topology service.name host := by
  have released := s.topology.undeploy_everywhere_hosts service
  have names := s.topology.undeploy_everywhere_node_names service
  have outcome := plan.place_outcome service weights s
  rw [placed] at outcome
  cases outcome with
  | unplaced =>
      refine ⟨names, nofun, fun node name => ?_⟩
      rw [released]
      simp
  | placed before after n n' g order passed fits =>
      have candidate := candidates_are_nodes _ _ _ _ _ _ _ order n (by simp)
      obtain ⟨stored, listed⟩ := plan.listed_nodes_are_nodes _ n candidate
      refine ⟨(Topology.update_node_names _ n').trans names, ?_, fun node name => ?_⟩
      · intro node chosen
        cases chosen
        exact (Node.deploy_keeps_name fits).symm ▸ listed
      · rw [Topology.update_node_hosts (names ▸ distinct) stored fits, released]
        simp only [Option.some.injEq, eq_comm, and_comm]

omit [Quantity α] [Summation α] in
theorem Rehosted.still_unhosted {plan : RoundingPlan α σ δ} {t t' : Topology α}
    {service name : String} {host : Option String} (rehosted : plan.Rehosted t t' service host)
    (other : name ≠ service) (unhosted : ∀ node, ¬ t.Hosts node name) (node : String) :
    ¬ t'.Hosts node name := by
  intro hosted
  rcases (rehosted.hosts node name).mp hosted with ⟨-, before⟩ | ⟨same, -⟩
  · exact unhosted node before
  · exact other same

omit [Quantity α] [Summation α] in
/-- The services that follow one are not put anywhere with it, as each of them is listed once. -/
theorem Rehosted.rest_unhosted {plan : RoundingPlan α σ δ} {t t' : Topology α}
    {row : Service α × List α} {rest : List (Service α × List α)} {host : Option String}
    (rehosted : plan.Rehosted t t' row.1.name host)
    (once : ((row :: rest).map (·.1.name)).Nodup)
    (unhosted : ∀ later ∈ row :: rest, ∀ node, ¬ t.Hosts node later.1.name) :
    ∀ later ∈ rest, ∀ node, ¬ t'.Hosts node later.1.name := by
  intro later member
  apply rehosted.still_unhosted _ (unhosted later (List.mem_cons_of_mem row member))
  intro same
  have repeated : row.1.name ∈ rest.map (·.1.name) := same ▸ List.mem_map_of_mem member
  exact (List.nodup_cons.mp once).1 repeated

structure AllRehosted (plan : RoundingPlan α σ δ) (t t' : Topology α) (services : List String)
    (assignments : List (String × Option String)) : Prop where
  names : t'.nodeNames = t.nodeNames
  covered : assignments.map (·.1) = services
  listed : ∀ service node, (service, some node) ∈ assignments → node ∈ plan.nodeNames
  hosts : ∀ node name, t'.Hosts node name ↔
    name ∉ services ∧ t.Hosts node name ∨ (name, some node) ∈ assignments

omit [Quantity α] [Summation α] in
theorem AllRehosted.of_same_nodes {plan : RoundingPlan α σ δ} {t t' t'' : Topology α}
    {services : List String} {assignments : List (String × Option String)}
    (rehosted : plan.AllRehosted t t' services assignments) (same : t''.nodes = t'.nodes) :
    plan.AllRehosted t t'' services assignments := by
  have names : t''.nodeNames = t'.nodeNames := congrArg (List.map Node.name) same
  refine ⟨names.trans rehosted.names, rehosted.covered, rehosted.listed, fun node name => ?_⟩
  have hosts : t''.Hosts node name ↔ t'.Hosts node name := by
    unfold Topology.Hosts
    rw [same]
  exact hosts.trans (rehosted.hosts node name)

theorem place_all_rehosted (plan : RoundingPlan α σ δ) (rows : List (Service α × List α))
    (s s' : RoundingState α σ) (assignments : List (String × Option String))
    (distinct : s.topology.nodeNames.Nodup) (once : (rows.map (·.1.name)).Nodup)
    (placed : plan.placeAll rows s = (s', .ok assignments)) :
    plan.AllRehosted s.topology s'.topology (rows.map (·.1.name)) assignments := by
  induction rows generalizing s assignments with
  | nil =>
      cases placed
      exact ⟨rfl, rfl, nofun, fun node name => by simp⟩
  | cons row rest ih =>
      obtain ⟨service, weights⟩ := row
      obtain ⟨fresh, onceRest⟩ := List.nodup_cons.mp once
      obtain ⟨between, host, later, first, afterwards, rfl⟩ := place_all_cons placed
      have rehosted := plan.place_rehosted service weights s between host distinct first
      have tail := ih between later (rehosted.names ▸ distinct) onceRest afterwards
      refine ⟨tail.names.trans rehosted.names, ?_, ?_, fun node name => ?_⟩
      · rw [List.map_cons, List.map_cons, tail.covered]
      · intro name node member
        rcases List.mem_cons.mp member with new | old
        · cases new
          exact rehosted.listed node rfl
        · exact tail.listed name node old
      · have kept : name = service.name → name ∉ rest.map (·.1.name) :=
          fun same => same ▸ fresh
        rw [tail.hosts, rehosted.hosts, List.map_cons, List.mem_cons, List.mem_cons,
          Prod.mk.injEq, eq_comm (a := some node)]
        tauto

end RoundingPlan

/-! ## Rounding -/

omit [Quantity α] in
theorem RoundingInput.accepted {input : RoundingInput α} {nodeNames : List String}
    {t : Topology α} (accepted : input.fault? nodeNames t = none) :
    input.fractions.rows.length = input.services.length ∧
      (input.services.map (·.name)).Nodup ∧ ∀ name ∈ nodeNames, name ∈ t.nodeNames := by
  unfold RoundingInput.fault? at accepted
  split at accepted
  · cases accepted
  · rename_i known
    split_ifs at accepted with shape repeated
    refine ⟨?_, by simpa using repeated, fun name member => ?_⟩
    · simp only [Fractions.hasShape, Bool.not_eq_true, Bool.not_eq_false', Bool.and_eq_true,
        beq_iff_eq] at shape
      exact shape.1
    · have hasNode := List.find?_eq_none.mp known name member
      exact (t.has_node_iff name).mp (by simpa using hasNode)

omit [Quantity α] in
theorem RoundingInput.row_names {input : RoundingInput α}
    (sameLength : input.fractions.rows.length = input.services.length) :
    (input.services.zip input.fractions.rows).map (·.1.name) = input.services.map (·.name) := by
  have services : (input.services.zip input.fractions.rows).map Prod.fst = input.services :=
    List.map_fst_zip (Nat.le_of_eq sameLength.symm)
  rw [← congrArg (List.map (·.name)) services, List.map_map]
  rfl

variable [Summation α] [PathChoice α]

/-- The placing behind a rounding that returns. Routing has left the nodes as they were. -/
theorem rounding_rehosts (plan : RoundingPlan α σ δ) (input : RoundingInput α)
    (s s' : RoundingState α σ) (placement : Placement α)
    (distinct : s.topology.nodeNames.Nodup)
    (returned : roundFractions plan input s = (s', .ok placement)) :
    (input.services.map (·.name)).Nodup ∧
      plan.AllRehosted s.topology s'.topology (input.services.map (·.name))
        placement.assignments.entries := by
  obtain ⟨accepted, placed, assignments, routing, placing, routed, rfl⟩ := round_returned returned
  obtain ⟨sameLength, once, -⟩ := RoundingInput.accepted accepted
  have rowNames := RoundingInput.row_names sameLength
  have rehosted := plan.place_all_rehosted _ s placed assignments distinct (rowNames ▸ once) placing
  rw [rowNames] at rehosted
  exact ⟨once, rehosted.of_same_nodes (Topology.routed_keeps_nodes routed)⟩

/-- One host for each listed service, where its assignment says; no other service is moved, and
nodes that are not listed gain none. -/
theorem listed_services_hosted_where_assigned (plan : RoundingPlan α σ δ)
    (input : RoundingInput α) (s s' : RoundingState α σ) (placement : Placement α)
    (distinct : s.topology.nodeNames.Nodup)
    (returned : roundFractions plan input s = (s', .ok placement)) :
    s'.topology.nodeNames = s.topology.nodeNames ∧
    (∀ service ∈ input.services, ∃ host,
      placement.assignments.get? service.name = some host ∧
      ∀ n ∈ s'.topology.nodes, n.hosts service.name = true ↔ host = some n.name) ∧
    (∀ n ∈ s.topology.nodes, ∀ n' ∈ s'.topology.nodes, n'.name = n.name →
      (∀ service, service ∉ input.services.map (·.name) →
        (n'.hosts service = true ↔ n.hosts service = true)) ∧
      (n.name ∉ plan.nodeNames → ∀ service, n'.hosts service = true →
        n.hosts service = true)) := by
  obtain ⟨once, rehosted⟩ := rounding_rehosts plan input s s' placement distinct returned
  have distinct' : s'.topology.nodeNames.Nodup := rehosted.names ▸ distinct
  have keys : (placement.assignments.entries.map (·.1)).Nodup := rehosted.covered ▸ once
  refine ⟨rehosted.names, fun service member => ?_, fun n stored n' stored' named => ?_⟩
  · have listed : service.name ∈ input.services.map (·.name) := List.mem_map_of_mem member
    have assigned : service.name ∈ placement.assignments.entries.map (·.1) :=
      rehosted.covered ▸ listed
    obtain ⟨⟨name, host⟩, entry, rfl⟩ := List.mem_map.mp assigned
    refine ⟨host, (OrderedMap.get_eq_some_iff keys _ _).mpr entry, fun n stored => ?_⟩
    rw [← Topology.hosts_iff_of_distinct distinct' stored, rehosted.hosts,
      ← OrderedMap.get_eq_some_iff keys, (OrderedMap.get_eq_some_iff keys _ host).mpr entry,
      Option.some.injEq]
    tauto
  · have before := fun service => Topology.hosts_iff_of_distinct distinct stored service
    have after := fun service => Topology.hosts_iff_of_distinct distinct' stored' service
    constructor
    · intro service unlisted
      have unassigned : (service, some n.name) ∉ placement.assignments.entries := by
        intro entry
        exact unlisted (rehosted.covered ▸ List.mem_map_of_mem (f := (·.1)) entry)
      rw [← after, ← before, named, rehosted.hosts]
      tauto
    · intro outside service hosted
      rw [← after, named, rehosted.hosts] at hosted
      rcases hosted with ⟨-, kept⟩ | gained
      · exact (before service).mp kept
      · exact absurd (rehosted.listed service n.name gained) outside

/-- A sampler without a generator, which picks the first alternative. -/
def firstChoice : Sampler Rat Unit Unit where
  ofSeed? _ := some ()
  draw _ := ((), ())
  admits _ _ := true
  pick _ _ := 0

def doublyHosted : Topology Rat where
  nodes := [⟨"a", ⟨2, 2, 2, 2⟩, ⟨1, 1, 1, 1⟩, ["s", "t"]⟩,
    ⟨"b", ⟨2, 2, 2, 2⟩, ⟨1, 1, 1, 1⟩, ["s"]⟩]
  links := []
  canonical := [("a", "a"), ("b", "b")]
  tieTolerance := 0

def singlyHosted : Topology Rat where
  nodes := [⟨"a", ⟨2, 2, 2, 2⟩, ⟨0, 0, 0, 0⟩, ["t"]⟩,
    ⟨"b", ⟨2, 2, 2, 2⟩, ⟨1, 1, 1, 1⟩, ["s"]⟩]
  links := []
  canonical := [("a", "a"), ("b", "b")]
  tieTolerance := 0

def soleFraction : RoundingInput Rat where
  fractions := ⟨1, [[1]]⟩
  services := [⟨"s", 1, 1, 1, 1, 1, 1⟩]
  demands := []
  weight := "latency"

def soleAssignment : Placement Rat :=
  ⟨⟨[("s", some "b")]⟩, ⟨[]⟩, [], []⟩

theorem doubly_hosted_service_moves :
    singlyHosted.nodeNames = doublyHosted.nodeNames ∧
    (∀ service ∈ soleFraction.services, ∃ host,
      soleAssignment.assignments.get? service.name = some host ∧
      ∀ n ∈ singlyHosted.nodes, n.hosts service.name = true ↔ host = some n.name) ∧
    (∀ n ∈ doublyHosted.nodes, ∀ n' ∈ singlyHosted.nodes, n'.name = n.name →
      (∀ service, service ∉ soleFraction.services.map (·.name) →
        (n'.hosts service = true ↔ n.hosts service = true)) ∧
      (n.name ∉ ["b"] → ∀ service, n'.hosts service = true → n.hosts service = true)) :=
  listed_services_hosted_where_assigned ⟨firstChoice, ["b"], 0⟩ soleFraction
    ⟨doublyHosted, ()⟩ ⟨singlyHosted, ()⟩ soleAssignment (by decide) (by decide +kernel)

end EdgePlacement
