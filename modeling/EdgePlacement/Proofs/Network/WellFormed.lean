import EdgePlacement.Network.Topology
import EdgePlacement.Proofs.OrderedMap

/-!
# Well-formed topologies

What adding nodes and links guarantees: names that differ even without regard to letter case, the
lower-case index of exactly these names, distinct link ids, and links that end in nodes.
-/

namespace EdgePlacement

open EdgePlacement.Text

set_option autoImplicit false

namespace Topology

variable {α : Type}

structure WellFormed (t : Topology α) : Prop where
  names : (t.nodeNames.map lowerCase).Nodup
  index : t.canonical = t.nodeNames.map fun name => (lowerCase name, name)
  ids : (t.links.map (·.id)).Nodup
  ends : ∀ l ∈ t.links, l.first ∈ t.nodeNames ∧ l.second ∈ t.nodeNames

/-! ## Lookups -/

theorem has_node_iff (t : Topology α) (name : String) :
    t.hasNode name = true ↔ name ∈ t.nodeNames := by
  unfold hasNode
  exact List.contains_iff_mem

theorem node_found {t : Topology α} {name : String} {n : Node α}
    (found : t.node? name = some n) : n ∈ t.nodes ∧ n.name = name := by
  refine ⟨List.mem_of_find?_eq_some found, ?_⟩
  simpa using List.find?_some found

theorem node_of_member {t : Topology α} (distinct : t.nodeNames.Nodup) {n : Node α}
    (member : n ∈ t.nodes) : t.node? n.name = some n :=
  find_by_key Node.name distinct member

theorem link_found {t : Topology α} {id : String} {l : Link α} (found : t.link? id = some l) :
    l ∈ t.links ∧ l.id = id := by
  refine ⟨List.mem_of_find?_eq_some found, ?_⟩
  simpa using List.find?_some found

theorem link_missing_iff (t : Topology α) (id : String) :
    (t.link? id).isSome = false ↔ id ∉ t.links.map (·.id) := by
  simp [link?, List.find?_eq_none]

theorem lookup_index (names : List String) (key : String) :
    (names.map fun name => (lowerCase name, name)).lookup key =
      names.find? fun name => lowerCase name = key := by
  induction names with
  | nil => rfl
  | cons name rest ih =>
      rw [List.map_cons, List.lookup_cons, List.find?_cons, ih]
      by_cases same : key = lowerCase name
      · simp [same]
      · simp [beq_false_of_ne same, Ne.symm same]

namespace WellFormed

variable {t : Topology α}

theorem names_distinct (wellFormed : t.WellFormed) : t.nodeNames.Nodup :=
  wellFormed.names.of_map

theorem node_unique (wellFormed : t.WellFormed) {n n' : Node α} (member : n ∈ t.nodes)
    (member' : n' ∈ t.nodes) (named : n.name = n'.name) : n = n' :=
  List.inj_on_of_nodup_map wellFormed.names_distinct member member' named

theorem link_unique (wellFormed : t.WellFormed) {l l' : Link α} (member : l ∈ t.links)
    (member' : l' ∈ t.links) (named : l.id = l'.id) : l = l' :=
  List.inj_on_of_nodup_map wellFormed.ids member member' named

/-! ## Additions -/

theorem empty (tieTolerance : α) : (Topology.empty tieTolerance).WellFormed where
  names := List.nodup_nil
  index := rfl
  ids := List.nodup_nil
  ends := nofun

theorem add_node (wellFormed : t.WellFormed) {n : Node α} {t' : Topology α}
    (added : t.addNode n = .ok t') : t'.WellFormed := by
  unfold Topology.addNode at added
  split at added
  · cases added
  · rename_i free
    cases added
    rw [wellFormed.index, lookup_index, List.find?_eq_none] at free
    have names : (t.nodes ++ [n]).map (·.name) = t.nodeNames ++ [n.name] := by
      rw [List.map_append]
      rfl
    refine ⟨?_, ?_, wellFormed.ids, ?_⟩
    · change (((t.nodes ++ [n]).map (·.name)).map lowerCase).Nodup
      rw [names, List.map_append, List.map_singleton, ← List.concat_eq_append]
      refine List.Nodup.concat (fun taken => ?_) wellFormed.names
      obtain ⟨name, listed, same⟩ := List.mem_map.mp taken
      exact free name listed (by simpa using same)
    · change t.canonical ++ _ = ((t.nodes ++ [n]).map (·.name)).map _
      rw [names, List.map_append, wellFormed.index]
      rfl
    · intro l member
      obtain ⟨first, second⟩ := wellFormed.ends l member
      change l.first ∈ (t.nodes ++ [n]).map (·.name) ∧ l.second ∈ (t.nodes ++ [n]).map (·.name)
      rw [names]
      exact ⟨List.mem_append_left _ first, List.mem_append_left _ second⟩

theorem resolved_is_node (wellFormed : t.WellFormed) {name resolved : String}
    (found : t.resolve? name = some resolved) : resolved ∈ t.nodeNames := by
  unfold Topology.resolve? at found
  split at found
  · rename_i present
    cases found
    exact (has_node_iff t name).mp present
  · rw [wellFormed.index, lookup_index] at found
    exact List.mem_of_find?_eq_some found

theorem add_link (wellFormed : t.WellFormed) {l stored : Link α} {t' : Topology α}
    (added : t.addLink l = .ok (stored, t')) : t'.WellFormed := by
  unfold Topology.addLink at added
  split at added
  · rename_i first second firstFound secondFound
    split at added
    · cases added
    · rename_i fresh
      cases added
      have absent := (link_missing_iff t l.id).mp (by simpa using fresh)
      refine ⟨wellFormed.names, wellFormed.index, ?_, ?_⟩
      · change ((t.links ++ [{ l with first, second }]).map Link.id).Nodup
        rw [List.map_append, List.map_singleton, ← List.concat_eq_append]
        exact List.Nodup.concat absent wellFormed.ids
      · intro k member
        rcases List.mem_append.mp member with old | new
        · exact wellFormed.ends k old
        · have same : k = { l with first, second } := by simpa using new
          subst same
          exact ⟨wellFormed.resolved_is_node firstFound,
            wellFormed.resolved_is_node secondFound⟩
  · cases added

end WellFormed
end Topology
end EdgePlacement
