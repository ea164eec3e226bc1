import Mathlib.Data.List.Induction
import EdgePlacement.Network.Registry
import EdgePlacement.Proofs.Paths.RoutingGraphs

/-!
# What a registry keeps in step

A registry keeps its nodes and links in five places. An addition that is refused has changed none of
them, and one that goes through leaves them in step with each other, so that all of them tell of one
topology; queries change nothing but what is remembered of them.
-/

namespace EdgePlacement

open EdgePlacement.Text

set_option autoImplicit false

variable {α : Type}

/-! ## Multigraphs and sets -/

namespace Multigraph

variable {g : Multigraph α}

theorem add_new_vertex {name : String} (new : name ∉ g.vertices) :
    g.addVertex name = { g with vertices := g.vertices ++ [name] } := by
  simp [addVertex, new]

theorem add_known_vertex {name : String} (known : name ∈ g.vertices) : g.addVertex name = g := by
  simp [addVertex, known]

theorem add_new_edge {e : Edge α} (first : e.first ∈ g.vertices) (second : e.second ∈ g.vertices)
    (new : e.id ∉ g.edges.map (·.id)) : g.addEdge e = { g with edges := g.edges ++ [e] } := by
  have different : g.edges.any (isSame e) = false := by
    rw [List.any_eq_false]
    intro old listed same
    apply new
    simp only [isSame, Bool.and_eq_true, beq_iff_eq] at same
    exact List.mem_map.mpr ⟨old, listed, same.1.symm⟩
  unfold addEdge
  simp only [add_known_vertex first, add_known_vertex second, different]
  simp

end Multigraph

/-! ## Actions -/

namespace Action

variable {σ β γ : Type} (s : σ)

theorem get_bind (next : σ → Action σ α β) :
    ((get : Action σ α σ) >>= next) s = next s s := rfl

theorem modify_bind (f : σ → σ) (next : Unit → Action σ α β) :
    ((modify f : Action σ α Unit) >>= next) s = next () (f s) := rfl

theorem modify_run (f : σ → σ) : (modify f : Action σ α Unit) s = (.ok (), f s) := rfl

theorem throw_run (fault : Fault α) : (throw fault : Action σ α β) s = (.error fault, s) := rfl

theorem pure_run (result : β) : (pure result : Action σ α β) s = (.ok result, s) := rfl

variable {s}

theorem bind_ok {first : Action σ α β} {next : β → Action σ α γ} {s' : σ} {result : β}
    (ended : first s = (.ok result, s')) : (first >>= next) s = next result s' := by
  change ExceptT.bindCont next (first s).1 (first s).2 = next result s'
  rw [ended]
  rfl

end Action

namespace Registry

theorem with_new_id {ids : List String} {id : String} (new : id ∉ ids) :
    withId ids id = ids ++ [id] := by
  simp [withId, new]

/-! ## How additions end -/

def withNode (r : Registry α) (n : Node α) : Registry α :=
  { r with
    nodes := r.nodes.put n.name n
    byLower := r.byLower.put (lowerCase n.name) n.name
    graph := r.graph.addVertex n.name
    remembered := none }

def withLink (r : Registry α) (l : Link α) : Registry α :=
  { r with
    links := r.links ++ [l]
    linkIds := withId r.linkIds l.id
    graph := r.graph.addEdge l.edge
    remembered := none }

inductive NodeOutcome (r : Registry α) (n : Node α) :
    Except (Fault α) (Node α) × Registry α → Prop where
  | refused (existing : String) (taken : r.byLower.get? (lowerCase n.name) = some existing) :
      NodeOutcome r n (.error (.duplicateNode n.name existing), r)
  | added (free : r.byLower.get? (lowerCase n.name) = none) :
      NodeOutcome r n (.ok n, r.withNode n)

def missingEnds (r : Registry α) (l : Link α) : List String :=
  (if (r.resolve? l.first).isNone then [l.first] else []) ++
    if (r.resolve? l.second).isNone then [l.second] else []

inductive LinkOutcome (r : Registry α) (l : Link α) :
    Except (Fault α) Unit × Registry α × Link α → Prop where
  | unknown (unresolved : r.resolve? l.first = none ∨ r.resolve? l.second = none) :
      LinkOutcome r l (.error (.unknownEndpoints l.id (r.missingEnds l)), r, l)
  | repeated (first second : String) (firstFound : r.resolve? l.first = some first)
      (secondFound : r.resolve? l.second = some second) (taken : l.id ∈ r.linkIds) :
      LinkOutcome r l (.error (.duplicateLink l.id), r, l)
  | added (first second : String) (firstFound : r.resolve? l.first = some first)
      (secondFound : r.resolve? l.second = some second) (new : l.id ∉ r.linkIds) :
      LinkOutcome r l (.ok (), r.withLink { l with first, second }, { l with first, second })

theorem add_node_outcome (r : Registry α) (n : Node α) : NodeOutcome r n (addNode n r) := by
  cases found : r.byLower.get? (lowerCase n.name) with
  | some existing =>
      have ending : addNode n r = (.error (.duplicateNode n.name existing), r) := by
        simp only [addNode, Action.get_bind, found, Action.throw_run]
      rw [ending]
      exact .refused existing found
  | none =>
      have ending : addNode n r = (.ok n, r.withNode n) := by
        simp only [addNode, Action.get_bind, found, Action.modify_bind, Action.pure_run, withNode]
      rw [ending]
      exact .added found

theorem add_link_unknown {r : Registry α} {l : Link α}
    (unresolved : r.resolve? l.first = none ∨ r.resolve? l.second = none) :
    addLink (r, l) = (.error (.unknownEndpoints l.id (r.missingEnds l)), r, l) := by
  cases firstFound : r.resolve? l.first with
  | none => simp only [addLink, missingEnds, Action.get_bind, firstFound, Action.throw_run]
  | some first =>
      have secondMissing : r.resolve? l.second = none := by simpa [firstFound] using unresolved
      simp only [addLink, missingEnds, Action.get_bind, firstFound, secondMissing,
        Action.throw_run]

theorem add_link_outcome (r : Registry α) (l : Link α) : LinkOutcome r l (addLink (r, l)) := by
  by_cases unresolved : r.resolve? l.first = none ∨ r.resolve? l.second = none
  · rw [add_link_unknown unresolved]
    exact .unknown unresolved
  · obtain ⟨firstKnown, secondKnown⟩ := not_or.mp unresolved
    obtain ⟨first, firstFound⟩ := Option.ne_none_iff_exists'.mp firstKnown
    obtain ⟨second, secondFound⟩ := Option.ne_none_iff_exists'.mp secondKnown
    by_cases taken : l.id ∈ r.linkIds
    · have ending : addLink (r, l) = (.error (.duplicateLink l.id), r, l) := by
        simp only [addLink, Action.get_bind, firstFound, secondFound, List.contains_iff_mem, taken,
          if_true, Action.throw_run]
      rw [ending]
      exact .repeated first second firstFound secondFound taken
    · have ending : addLink (r, l) =
          (.ok (), r.withLink { l with first, second }, { l with first, second }) := by
        simp only [addLink, Action.get_bind, firstFound, secondFound, List.contains_iff_mem, taken,
          if_false, Action.modify_bind, Action.modify_run, withLink]
      rw [ending]
      exact .added first second firstFound secondFound taken

/-! ## In step -/

/-- The five places tell of the same nodes and links. -/
structure InStep (r : Registry α) : Prop where
  /-- No two names are equal but for letter case. -/
  names : (r.nodes.keys.map lowerCase).Nodup
  keyed : ∀ entry ∈ r.nodes.entries, entry.2.name = entry.1
  index : r.byLower.entries = r.nodes.keys.map fun name => (lowerCase name, name)
  ids : (r.links.map (·.id)).Nodup
  idSet : r.linkIds = r.links.map (·.id)
  ends : ∀ l ∈ r.links, l.first ∈ r.nodes.keys ∧ l.second ∈ r.nodes.keys
  vertices : r.graph.vertices = r.nodes.keys
  /-- One edge for each link, between its ends. -/
  edges : r.graph.edges = r.links.map Link.edge

theorem canonical_lookup (r : Registry α) (key : String) :
    r.topology.canonical.lookup key = r.byLower.get? key :=
  (OrderedMap.get_eq_lookup r.byLower key).symm

theorem has_node_iff (r : Registry α) (name : String) :
    r.hasNode name = true ↔ name ∈ r.nodes.keys :=
  OrderedMap.get_is_some_iff

namespace InStep

variable {r : Registry α} {n : Node α} {l : Link α}

theorem empty (tieTolerance : α) : (Registry.empty tieTolerance).InStep where
  names := List.nodup_nil
  keyed := nofun
  index := rfl
  ids := List.nodup_nil
  idSet := rfl
  ends := nofun
  vertices := rfl
  edges := rfl

theorem names_of_keyed (keyed : ∀ entry ∈ r.nodes.entries, entry.2.name = entry.1) :
    r.topology.nodeNames = r.nodes.keys := by
  have named : r.nodes.entries.map (fun entry => entry.2.name) = r.nodes.entries.map (·.1) :=
    List.map_congr_left keyed
  simpa [Topology.nodeNames, topology, OrderedMap.values, OrderedMap.keys, List.map_map] using named

theorem node_names (inStep : r.InStep) : r.topology.nodeNames = r.nodes.keys :=
  names_of_keyed inStep.keyed

theorem of_well_formed (wellFormed : r.topology.WellFormed)
    (keyed : ∀ entry ∈ r.nodes.entries, entry.2.name = entry.1)
    (idSet : r.linkIds = r.links.map (·.id)) (vertices : r.graph.vertices = r.nodes.keys)
    (edges : r.graph.edges = r.links.map Link.edge) : r.InStep := by
  have names := names_of_keyed keyed
  exact ⟨names ▸ wellFormed.names, keyed, names ▸ wellFormed.index, wellFormed.ids, idSet,
    names ▸ wellFormed.ends, vertices, edges⟩

theorem well_formed (inStep : r.InStep) : r.topology.WellFormed := by
  have names := inStep.node_names
  exact ⟨names ▸ inStep.names, names ▸ inStep.index, inStep.ids, names ▸ inStep.ends⟩

theorem same_nodes (inStep : r.InStep) (name : String) :
    r.topology.hasNode name = r.hasNode name := by
  rw [Bool.eq_iff_iff, Topology.has_node_iff, has_node_iff, inStep.node_names]

theorem index_lookup (inStep : r.InStep) (key : String) :
    r.byLower.get? key = r.nodes.keys.find? fun name => lowerCase name = key := by
  rw [OrderedMap.get_eq_lookup, inStep.index, Topology.lookup_index]

theorem resolves_as_topology (inStep : r.InStep) (name : String) :
    r.topology.resolve? name = r.resolve? name := by
  unfold resolve? Topology.resolve?
  rw [inStep.same_nodes, canonical_lookup]

/-- Looking for the exact name first and without regard to case then comes to the same. -/
theorem resolve_eq_some_iff (inStep : r.InStep) (query name : String) :
    r.resolve? query = some name ↔ name ∈ r.nodes.keys ∧ lowerCase name = lowerCase query := by
  have unique : ∀ name ∈ r.nodes.keys, ∀ other ∈ r.nodes.keys,
      lowerCase name = lowerCase other → name = other :=
    fun _ listed _ listed' => List.inj_on_of_nodup_map inStep.names listed listed'
  unfold resolve?
  by_cases exact : query ∈ r.nodes.keys
  · rw [if_pos ((has_node_iff r query).mpr exact)]
    constructor
    · intro same
      cases same
      exact ⟨exact, rfl⟩
    · rintro ⟨listed, same⟩
      rw [unique name listed query exact same]
  · rw [if_neg (exact ∘ (has_node_iff r query).mp), inStep.index_lookup]
    constructor
    · intro found
      exact ⟨List.mem_of_find?_eq_some found, by simpa using List.find?_some found⟩
    · rintro ⟨listed, same⟩
      rw [← same]
      exact find_by_key lowerCase inStep.names listed

theorem resolve_eq_none_iff (inStep : r.InStep) (query : String) :
    r.resolve? query = none ↔ ∀ name ∈ r.nodes.keys, lowerCase name ≠ lowerCase query := by
  rw [Option.eq_none_iff_forall_ne_some]
  simp only [ne_eq, inStep.resolve_eq_some_iff, not_and]

/-! ### Additions -/

theorem free_name (inStep : r.InStep) (free : r.byLower.get? (lowerCase n.name) = none) :
    n.name ∉ r.nodes.keys := by
  intro listed
  rw [inStep.index_lookup, List.find?_eq_none] at free
  exact free n.name listed (by simp)

theorem with_node_topology (inStep : r.InStep)
    (free : r.byLower.get? (lowerCase n.name) = none) :
    r.topology.addNode n = .ok (r.withNode n).topology := by
  have nodes := OrderedMap.put_new (inStep.free_name free) n
  have index := OrderedMap.put_new (OrderedMap.get_eq_none_iff.mp free) n.name
  unfold Topology.addNode
  rw [canonical_lookup, free]
  simp [topology, withNode, nodes, index, OrderedMap.values]

theorem with_node (inStep : r.InStep) (free : r.byLower.get? (lowerCase n.name) = none) :
    (r.withNode n).InStep := by
  have new := inStep.free_name free
  have nodes := OrderedMap.put_new new n
  have keys : (r.withNode n).nodes.keys = r.nodes.keys ++ [n.name] := by
    simp [withNode, nodes, OrderedMap.keys]
  have keyed : ∀ entry ∈ (r.withNode n).nodes.entries, entry.2.name = entry.1 := by
    intro entry listed
    simp only [withNode, nodes, List.mem_append, List.mem_singleton] at listed
    rcases listed with old | rfl
    · exact inStep.keyed entry old
    · rfl
  have vertices : (r.withNode n).graph =
      { r.graph with vertices := r.graph.vertices ++ [n.name] } :=
    Multigraph.add_new_vertex (inStep.vertices ▸ new)
  apply of_well_formed
  · exact inStep.well_formed.add_node (inStep.with_node_topology free)
  · exact keyed
  · exact inStep.idSet
  · rw [vertices, keys, inStep.vertices]
  · rw [vertices]
    exact inStep.edges

section Link

variable (inStep : r.InStep) {first second : String}
  (firstFound : r.resolve? l.first = some first) (secondFound : r.resolve? l.second = some second)
  (new : l.id ∉ r.linkIds)

include inStep firstFound secondFound new

theorem with_link_topology : r.topology.addLink l =
      .ok ({ l with first, second }, (r.withLink { l with first, second }).topology) := by
  have missing : (r.topology.link? l.id).isSome = false := by
    rw [Topology.link_missing_iff]
    exact inStep.idSet ▸ new
  unfold Topology.addLink
  simp only [inStep.resolves_as_topology, firstFound, secondFound, missing]
  rfl

theorem with_link : (r.withLink { l with first, second }).InStep := by
  have firstNode := ((inStep.resolve_eq_some_iff l.first first).mp firstFound).1
  have secondNode := ((inStep.resolve_eq_some_iff l.second second).mp secondFound).1
  have absent : l.id ∉ r.graph.edges.map (·.id) := by
    rw [inStep.edges, List.map_map]
    exact inStep.idSet ▸ new
  have graph : (r.withLink { l with first, second }).graph =
      { r.graph with edges := r.graph.edges ++ [({ l with first, second } : Link α).edge] } := by
    apply Multigraph.add_new_edge
    · exact inStep.vertices ▸ firstNode
    · exact inStep.vertices ▸ secondNode
    · exact absent
  have links : (r.withLink { l with first, second }).links =
      r.links ++ [{ l with first, second }] := rfl
  have ids : (r.withLink { l with first, second }).linkIds = r.linkIds ++ [l.id] := with_new_id new
  apply of_well_formed
  · exact inStep.well_formed.add_link (inStep.with_link_topology firstFound secondFound new)
  · exact inStep.keyed
  · rw [ids, links, inStep.idSet, List.map_append]
    rfl
  · rw [graph]
    exact inStep.vertices
  · rw [graph, links, inStep.edges, List.map_append]
    rfl

end Link

end InStep

/-! ## One addition -/

theorem NodeOutcome.refines {r r' : Registry α} {n : Node α} {result : Except (Fault α) (Node α)}
    (outcome : NodeOutcome r n (result, r')) (inStep : r.InStep) :
    r.topology.addNode n = result.map fun _ => r'.topology := by
  cases outcome with
  | refused existing taken =>
      unfold Topology.addNode
      rw [canonical_lookup, taken]
      rfl
  | added free => exact inStep.with_node_topology free

theorem LinkOutcome.refines {r r' : Registry α} {l l' : Link α} {result : Except (Fault α) Unit}
    (outcome : LinkOutcome r l (result, r', l')) (inStep : r.InStep) :
    r.topology.addLink l = result.map fun _ => (l', r'.topology) := by
  cases outcome with
  | unknown unresolved =>
      unfold Topology.addLink
      simp only [inStep.resolves_as_topology]
      split
      · rename_i first second firstFound secondFound
        simp [firstFound, secondFound] at unresolved
      · rfl
  | repeated first second firstFound secondFound taken =>
      have present : (r.topology.link? l.id).isSome = true := by
        rw [← Bool.not_eq_false, Topology.link_missing_iff, not_not]
        exact inStep.idSet ▸ taken
      unfold Topology.addLink
      simp only [inStep.resolves_as_topology, firstFound, secondFound, present]
      rfl
  | added first second firstFound secondFound new =>
      exact inStep.with_link_topology firstFound secondFound new

/-! ## Queries -/

section Queries

variable [Quantity α]

/-- The registry with the routing graph of its topology. -/
def remembering (r : Registry α) : Registry α :=
  { r with remembered := some r.topology.routing }

/-- What is remembered is what would be built anew. -/
def Fresh (r : Registry α) : Prop :=
  ∀ g, r.remembered = some g → g = r.topology.routing

theorem remembering_fresh (r : Registry α) : r.remembering.Fresh := by
  intro g found
  exact (Option.some.inj found).symm

namespace Fresh

variable {r : Registry α}

theorem routing_run (fresh : r.Fresh) :
    routingGraph r = (.ok r.topology.routing, r.remembering) := by
  cases found : r.remembered with
  | none =>
      simp only [routingGraph, Action.get_bind, found, remembering]
      rfl
  | some g =>
      have current := fresh g found
      have kept : r.remembering = r := by
        rw [remembering, ← current, ← found]
      simp only [routingGraph, Action.get_bind, found, kept, Action.pure_run, current]

theorem shown_run (fresh : r.Fresh) :
    shown r = (.ok (r.topology.seenBy r.topology.routing), r.remembering) := by
  unfold shown
  rw [Action.bind_ok fresh.routing_run]
  rfl

theorem neighbours_run (fresh : r.Fresh) (inStep : r.InStep) (name : String) :
    neighbours name r = (r.topology.neighbours name, r.remembering) := by
  unfold neighbours
  rw [Action.bind_ok fresh.shown_run, Topology.neighbours_seen inStep.well_formed rfl]
  rfl

theorem link_between_run (fresh : r.Fresh) (inStep : r.InStep) (a b : String) :
    linkBetween a b r = (.ok (r.topology.preferredLink? a b), r.remembering) := by
  unfold linkBetween
  rw [Action.bind_ok fresh.shown_run, Topology.preferred_link_seen inStep.well_formed rfl]
  rfl

variable [PathChoice α]

/-- The routing graph is asked for only when the way is not settled without it. -/
theorem find_path_run (fresh : r.Fresh) (inStep : r.InStep) (a b weight : String) :
    findPath a b weight r = (r.topology.findPath a b weight, r) ∨
      findPath a b weight r = (r.topology.findPath a b weight, r.remembering) := by
  have asked : (shown >>= fun t => liftM (t.findPath a b weight) : Action _ α _) r =
      (r.topology.findPath a b weight, r.remembering) := by
    rw [Action.bind_ok fresh.shown_run, Topology.find_path_seen inStep.well_formed rfl]
    rfl
  have answer : (findPath a b weight r) =
      if (PathWeight.ofName? weight).isNone then (.error (.unknownPathWeight weight), r)
      else if !(r.hasNode a && r.hasNode b) then (.error (.unknownPathEnds a b), r)
      else if a = b then (.ok (some []), r)
      else (r.topology.findPath a b weight, r.remembering) := by
    rw [← asked]
    unfold findPath
    rw [Action.get_bind]
    split_ifs <;> rfl
  rw [answer]
  cases known : PathWeight.ofName? weight with
  | none =>
      left
      simp only [Topology.findPath, known]
      rfl
  | some w =>
      simp only [Option.isNone_some, Bool.false_eq_true, if_false]
      split_ifs with unknown stays
      · left
        rw [← inStep.same_nodes, ← inStep.same_nodes] at unknown
        simp only [Topology.findPath, known, unknown, if_true]
      · left
        rw [← inStep.same_nodes, ← inStep.same_nodes] at unknown
        simp only [Topology.findPath, known]
        rw [if_neg unknown, if_pos stays]
      · exact Or.inr rfl

end Fresh

/-! ## Calls -/

structure Settled (r : Registry α) : Prop extends r.InStep where
  fresh : r.Fresh

namespace Settled

variable {r : Registry α}

theorem empty (tieTolerance : α) : (Registry.empty tieTolerance).Settled :=
  ⟨InStep.empty tieTolerance, nofun⟩

/-- The routing graph is kept beside the five places, not in one of them. -/
theorem remembering (settled : r.Settled) : r.remembering.Settled where
  toInStep := ⟨settled.names, settled.keyed, settled.index, settled.ids, settled.idSet,
    settled.ends, settled.vertices, settled.edges⟩
  fresh := remembering_fresh r

theorem add_node (settled : r.Settled) (n : Node α) :
    (addNode n r).2.Settled ∧ (addNode n r).2.tieTolerance = r.tieTolerance := by
  have outcome := add_node_outcome r n
  generalize addNode n r = ending at outcome ⊢
  cases outcome with
  | refused => exact ⟨settled, rfl⟩
  | added free => exact ⟨⟨settled.with_node free, nofun⟩, rfl⟩

theorem add_link (settled : r.Settled) (l : Link α) :
    (addLink (r, l)).2.1.Settled ∧ (addLink (r, l)).2.1.tieTolerance = r.tieTolerance := by
  have outcome := add_link_outcome r l
  generalize addLink (r, l) = ending at outcome ⊢
  cases outcome with
  | unknown => exact ⟨settled, rfl⟩
  | repeated => exact ⟨settled, rfl⟩
  | added first second firstFound secondFound new =>
      exact ⟨⟨settled.with_link firstFound secondFound new, nofun⟩, rfl⟩

variable [PathChoice α]

theorem call (settled : r.Settled) (call : Call α) :
    (call.after r).Settled ∧ (call.after r).tieTolerance = r.tieTolerance := by
  cases call with
  | addNode n => exact settled.add_node n
  | addLink l => exact settled.add_link l
  | neighbours name =>
      simp only [Call.after, settled.fresh.neighbours_run settled.toInStep]
      exact ⟨settled.remembering, rfl⟩
  | linkBetween a b =>
      simp only [Call.after, settled.fresh.link_between_run settled.toInStep]
      exact ⟨settled.remembering, rfl⟩
  | findPath a b weight =>
      rcases settled.fresh.find_path_run settled.toInStep a b weight with ending | ending
      · have after : (Call.findPath a b weight).after r = r := congrArg Prod.snd ending
        rw [after]
        exact ⟨settled, rfl⟩
      · have after : (Call.findPath a b weight).after r = r.remembering := congrArg Prod.snd ending
        rw [after]
        exact ⟨settled.remembering, rfl⟩

end Settled

variable [PathChoice α]

/-- Whatever is called, with whatever outcome, leaves the registry settled. -/
theorem calls_settle (tieTolerance : α) (calls : List (Call α)) :
    (ofCalls tieTolerance calls).Settled ∧
      (ofCalls tieTolerance calls).tieTolerance = tieTolerance := by
  unfold ofCalls
  induction calls using List.reverseRecOn with
  | nil => exact ⟨Settled.empty tieTolerance, rfl⟩
  | append_singleton calls call ih =>
      obtain ⟨settled, tolerance⟩ := ih
      obtain ⟨settled', kept⟩ := settled.call call
      rw [List.foldl_append, List.foldl_cons, List.foldl_nil]
      exact ⟨settled', kept.trans tolerance⟩

end Queries

theorem edges_of_distinct_ids {t : Topology α} (ids : (t.links.map (·.id)).Nodup) :
    t.edges = t.links := by
  unfold Topology.edges
  generalize t.links = links at ids
  induction links using List.reverseRecOn with
  | nil => rfl
  | append_singleton links l ih =>
      rw [List.map_append, List.nodup_append] at ids
      obtain ⟨distinct, -, apart⟩ := ids
      rw [List.foldl_append, ih distinct, List.foldl_cons, List.foldl_nil]
      apply if_neg
      rw [List.any_eq_true]
      rintro ⟨old, listed, same⟩
      simp only [Bool.and_eq_true, beq_iff_eq] at same
      exact apart old.id (List.mem_map_of_mem listed) l.id (by simp) same.1

structure Reliable (r : Registry α) : Prop where
  inStep : r.InStep
  counted : r.topology.edges = r.links
  /-- A node that is refused leaves everything as it was. -/
  nodeAtomic : ∀ n fault r', addNode n r = (.error fault, r') →
    r' = r ∧ fault.kind = .malformedRecord
  /-- A link that is refused leaves everything as it was, and is left as it was itself. -/
  linkAtomic : ∀ l fault r' l', addLink (r, l) = (.error fault, r', l') →
    r' = r ∧ l' = l ∧ fault.kind = .malformedRecord
  nodeAdded : ∀ n result r', addNode n r = (result, r') →
    r.topology.addNode n = result.map fun _ => r'.topology
  linkAdded : ∀ l result r' l', addLink (r, l) = (result, r', l') →
    r.topology.addLink l = result.map fun _ => (l', r'.topology)
  resolvedAs : ∀ query, r.topology.resolve? query = r.resolve? query
  resolved : ∀ query name, r.resolve? query = some name ↔
    name ∈ r.nodes.keys ∧ lowerCase name = lowerCase query
  unresolved : ∀ query, r.resolve? query = none ↔
    ∀ name ∈ r.nodes.keys, lowerCase name ≠ lowerCase query

/-- After every call on a new registry its five places are in step, the next addition is made in
full or not at all, and a name stands for the one node that has it, but for letter case. -/
theorem registry_reliable_after_calls [Quantity α] [PathChoice α] (tieTolerance : α)
    (calls : List (Call α)) : (ofCalls tieTolerance calls).Reliable := by
  have settled := (calls_settle tieTolerance calls).1
  generalize ofCalls tieTolerance calls = r at settled
  have inStep := settled.toInStep
  have nodeEnding : ∀ n result r', addNode n r = (result, r') → NodeOutcome r n (result, r') :=
    fun n _ _ ended => ended ▸ add_node_outcome r n
  have linkEnding : ∀ l result r' l', addLink (r, l) = (result, r', l') →
      LinkOutcome r l (result, r', l') := fun l _ _ _ ended => ended ▸ add_link_outcome r l
  constructor
  case inStep => exact inStep
  case counted => exact edges_of_distinct_ids inStep.ids
  case nodeAtomic =>
      intro n fault r' ended
      cases nodeEnding n _ r' ended with
      | refused => exact ⟨rfl, rfl⟩
  case linkAtomic =>
      intro l fault r' l' ended
      cases linkEnding l _ r' l' ended with
      | unknown => exact ⟨rfl, rfl, rfl⟩
      | repeated => exact ⟨rfl, rfl, rfl⟩
  case nodeAdded =>
      intro n result r' ended
      exact (nodeEnding n result r' ended).refines inStep
  case linkAdded =>
      intro l result r' l' ended
      exact (linkEnding l result r' l' ended).refines inStep
  case resolvedAs => exact inStep.resolves_as_topology
  case resolved => exact inStep.resolve_eq_some_iff
  case unresolved => exact inStep.resolve_eq_none_iff

/-- A second name that differs in letter case alone is refused, and so is a link to no node. -/
example :
    let r := ofCalls (0 : Rat) [.addNode (Node.fresh "A" 0), .addNode (Node.fresh "a" 0),
      .addLink ⟨"ab", "a", "b", 1, 1, 0⟩, .addLink ⟨"aa", "a", "A", 1, 1, 0⟩]
    r.nodes.keys = ["A"] ∧ r.links = [⟨"aa", "A", "A", 1, 1, 0⟩] ∧ r.resolve? "a" = some "A" := by
  decide +kernel

end Registry
end EdgePlacement
