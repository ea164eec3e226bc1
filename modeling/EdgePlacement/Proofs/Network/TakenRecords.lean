import EdgePlacement.Proofs.Firsts
import EdgePlacement.Proofs.Network.WellFormed

/-!
# Topologies from records

Records are taken one after the other, and each is added or left out. A record that is added comes
to the end of what the topology lists, and one that is left out is faulty or has a key that is
listed already: so the topology lists the first usable record of each key, and the rest is counted.
-/

namespace EdgePlacement

open EdgePlacement.Text

set_option autoImplicit false

namespace Topology

variable {α ρ β κ : Type} {t t' : Topology α}

/-! ## Names -/

theorem WellFormed.resolve_eq_some_iff (wellFormed : t.WellFormed) (query name : String) :
    t.resolve? query = some name ↔ name ∈ t.nodeNames ∧ lowerCase name = lowerCase query := by
  have unique : ∀ name ∈ t.nodeNames, ∀ other ∈ t.nodeNames,
      lowerCase name = lowerCase other → name = other :=
    fun _ listed _ listed' => List.inj_on_of_nodup_map wellFormed.names listed listed'
  unfold resolve?
  by_cases exact : query ∈ t.nodeNames
  · rw [if_pos ((has_node_iff t query).mpr exact)]
    constructor
    · intro same
      cases same
      exact ⟨exact, rfl⟩
    · rintro ⟨listed, same⟩
      rw [unique name listed query exact same]
  · rw [if_neg (exact ∘ (has_node_iff t query).mp), wellFormed.index, lookup_index]
    constructor
    · intro found
      exact ⟨List.mem_of_find?_eq_some found, by simpa using List.find?_some found⟩
    · rintro ⟨listed, same⟩
      rw [← same]
      exact find_by_key lowerCase wellFormed.names listed

def settle? (t : Topology α) (l : Link α) : Option (Link α) :=
  match t.resolve? l.first, t.resolve? l.second with
  | some first, some second => some { l with first, second }
  | _, _ => none

theorem settle_eq_some_iff {l stored : Link α} :
    t.settle? l = some stored ↔
      ∃ first second, t.resolve? l.first = some first ∧ t.resolve? l.second = some second ∧
        stored = { l with first, second } := by
  unfold settle?
  split
  · rename_i first second firstFound secondFound
    simp [firstFound, secondFound, eq_comm]
  · rename_i unresolved
    constructor
    · nofun
    · rintro ⟨first, second, firstFound, secondFound, -⟩
      exact absurd secondFound (unresolved first second firstFound)

/-! ## What an addition lists -/

/-- Additions to topologies that are `kept`: an accepted record comes to the end of the list as what
it is settled as, and a refused one settles as nothing or under a key that is listed. -/
structure Appends (kept : Topology α → Prop) (listed : Topology α → List β) (settle : ρ → Option β)
    (key : β → κ) (add : Topology α → ρ → Except (Fault α) (Topology α)) : Prop where
  accepted : ∀ t record t', kept t → add t record = .ok t' →
    kept t' ∧ ∃ item, settle record = some item ∧ key item ∉ (listed t).map key ∧
      listed t' = listed t ++ [item]
  refused : ∀ t record fault item, kept t → add t record = .error fault →
    settle record = some item → key item ∈ (listed t).map key

/-! ## Nodes and links -/

theorem index_free_iff (wellFormed : t.WellFormed) (n : Node α) :
    t.canonical.lookup (lowerCase n.name) = none ↔
      lowerCase n.name ∉ t.nodes.map fun n => lowerCase n.name := by
  rw [wellFormed.index, lookup_index, List.find?_eq_none, nodeNames, List.forall_mem_map]
  simp only [decide_eq_true_eq, List.mem_map, not_exists, not_and]

theorem add_node_appends (base : Topology α) :
    Appends (fun t : Topology α =>
        t.WellFormed ∧ t.links = base.links ∧ t.tieTolerance = base.tieTolerance)
      nodes some (fun n => lowerCase n.name) addNode where
  accepted := by
    rintro t n t' ⟨wellFormed, links, tolerance⟩ added
    have wellFormed' := wellFormed.add_node added
    unfold addNode at added
    split at added
    · cases added
    · rename_i free
      cases added
      exact ⟨⟨wellFormed', links, tolerance⟩, n, rfl, (index_free_iff wellFormed n).mp free, rfl⟩
  refused := by
    rintro t n fault item ⟨wellFormed, -⟩ refused settled
    cases settled
    unfold addNode at refused
    split at refused
    · rename_i existing taken
      by_contra free
      rw [(index_free_iff wellFormed n).mpr free] at taken
      cases taken
    · cases refused

theorem resolve_same_nodes {base : Topology α} (nodes : t.nodes = base.nodes)
    (index : t.canonical = base.canonical) (name : String) :
    t.resolve? name = base.resolve? name := by
  unfold resolve? hasNode nodeNames
  rw [nodes, index]

theorem settle_same_nodes {base : Topology α} (nodes : t.nodes = base.nodes)
    (index : t.canonical = base.canonical) (l : Link α) : t.settle? l = base.settle? l := by
  unfold settle?
  rw [resolve_same_nodes nodes index, resolve_same_nodes nodes index]

theorem add_link_appends (base : Topology α) :
    Appends (fun t : Topology α => t.WellFormed ∧ t.nodes = base.nodes ∧
        t.canonical = base.canonical ∧ t.tieTolerance = base.tieTolerance)
      links base.settle? Link.id (fun t l => (t.addLink l).map (·.2)) where
  accepted := by
    rintro t l t' ⟨wellFormed, nodes, index, tolerance⟩ added
    cases ending : t.addLink l with
    | error fault =>
        rw [ending] at added
        cases added
    | ok after =>
        rw [ending] at added
        cases added
        have wellFormed' := wellFormed.add_link ending
        unfold addLink at ending
        split at ending
        · rename_i first second firstFound secondFound
          split at ending
          · cases ending
          · rename_i new
            cases ending
            refine ⟨⟨wellFormed', nodes, index, tolerance⟩, { l with first, second }, ?_, ?_, rfl⟩
            · rw [← settle_same_nodes nodes index, settle_eq_some_iff]
              exact ⟨first, second, firstFound, secondFound, rfl⟩
            · exact (link_missing_iff t l.id).mp (by simpa using new)
        · cases ending
  refused := by
    rintro t l fault stored ⟨-, nodes, index, -⟩ refused settled
    rw [← settle_same_nodes nodes index, settle_eq_some_iff] at settled
    obtain ⟨first, second, firstFound, secondFound, rfl⟩ := settled
    by_contra new
    have free : (t.link? l.id).isSome = false := (link_missing_iff t l.id).mpr new
    simp [addLink, firstFound, secondFound, free, Except.map] at refused

/-! ## What many additions list -/

theorem take_records_cons {add : Topology α → ρ → Except (Fault α) (Topology α)}
    {record : Except (Fault α) ρ} {rest : List (Except (Fault α) ρ)} {skipped : Nat}
    (taken : takeRecords add (record :: rest) t = .ok (t', skipped)) :
    (∃ next, record.bind (add t) = .ok next ∧ takeRecords add rest next = .ok (t', skipped)) ∨
      ∃ fault before, record.bind (add t) = .error fault ∧
        takeRecords add rest t = .ok (t', before) ∧ skipped = before + 1 := by
  rw [takeRecords] at taken
  split at taken
  · rename_i next added
    exact Or.inl ⟨next, added, taken⟩
  · rename_i fault refused
    split_ifs at taken
    cases later : takeRecords add rest t with
    | error fault =>
        rw [later] at taken
        cases taken
    | ok ending =>
        rw [later] at taken
        cases taken
        exact Or.inr ⟨fault, ending.2, refused, rfl, rfl⟩

variable [DecidableEq κ] {kept : Topology α → Prop} {listed : Topology α → List β}
  {settle : ρ → Option β} {key : β → κ} {add : Topology α → ρ → Except (Fault α) (Topology α)}

namespace Appends

/-- One record: the list is longer by one, or the record is one of those that do not count. -/
theorem take_record (appends : Appends kept listed settle key add) (keptNow : kept t)
    (record : Except (Fault α) ρ) (items : List β) :
    match record.bind (add t) with
    | .ok next => kept next ∧ (listed next).length = (listed t).length + 1 ∧
        listed t ++ firstOfEach key ((listed t).map key)
            ((record.toOption.bind settle).toList ++ items) =
          listed next ++ firstOfEach key ((listed next).map key) items
    | .error _ => firstOfEach key ((listed t).map key)
          ((record.toOption.bind settle).toList ++ items) =
        firstOfEach key ((listed t).map key) items := by
  cases record with
  | error fault => rfl
  | ok record =>
      change match add t record with | .ok _ => _ | .error _ => _
      cases ending : add t record with
      | ok next =>
          obtain ⟨keptNext, item, settled, new, list⟩ :=
            appends.accepted t record next keptNow ending
          have sameKeys : ∀ k, k ∈ key item :: (listed t).map key ↔ k ∈ (listed next).map key := by
            simp [list, or_comm]
          refine ⟨keptNext, by simp [list], ?_⟩
          simp [Except.toOption, settled, firstOfEach, new, first_of_each_congr items sameKeys,
            list]
      | error fault =>
          cases settled : settle record with
          | none => simp [Except.toOption, settled]
          | some item =>
              have known := appends.refused t record fault item keptNow ending settled
              simp [Except.toOption, settled, firstOfEach, known]

/-- Many records: the list is longer by the first of each new key, and every other is counted. -/
theorem take_records (appends : Appends kept listed settle key add)
    {records : List (Except (Fault α) ρ)} {skipped : Nat} (keptNow : kept t)
    (taken : takeRecords add records t = .ok (t', skipped)) :
    kept t' ∧
      listed t' = listed t ++ firstOfEach key ((listed t).map key)
        (records.filterMap fun record => record.toOption.bind settle) ∧
      (listed t').length + skipped = (listed t).length + records.length := by
  induction records generalizing t skipped with
  | nil =>
      cases taken
      exact ⟨keptNow, by simp [firstOfEach], rfl⟩
  | cons record rest ih =>
      have step := appends.take_record keptNow record
        (rest.filterMap fun record => record.toOption.bind settle)
      have front : (record :: rest).filterMap (fun record => record.toOption.bind settle) =
          (record.toOption.bind settle).toList ++
            rest.filterMap fun record => record.toOption.bind settle := by
        cases found : record.toOption.bind settle <;> simp [found]
      rcases take_records_cons taken with
        ⟨next, added, later⟩ | ⟨fault, before, refused, later, rfl⟩
      · rw [added] at step
        obtain ⟨keptNext, longer, firsts⟩ := step
        obtain ⟨keptEnd, list, count⟩ := ih keptNext later
        refine ⟨keptEnd, ?_, ?_⟩
        · rw [list, front, firsts]
        · rw [List.length_cons]
          omega
      · rw [refused] at step
        obtain ⟨keptEnd, list, count⟩ := ih keptNow later
        refine ⟨keptEnd, ?_, ?_⟩
        · rw [list, front, step]
        · rw [List.length_cons]
          omega

omit [DecidableEq κ] in
theorem none_left_out (appends : Appends kept listed settle key add)
    {records : List (Except (Fault α) ρ)} (keptNow : kept t)
    (taken : takeRecords add records t = .ok (t', 0)) :
    kept t' ∧ ∃ items, listed t' = listed t ++ items ∧
      List.Forall₂ (fun record item => ∃ given, record = .ok given ∧ settle given = some item)
        records items := by
  induction records generalizing t with
  | nil =>
      cases taken
      exact ⟨keptNow, [], by rw [List.append_nil], .nil⟩
  | cons record rest ih =>
      rcases take_records_cons taken with ⟨next, added, later⟩ | ⟨_, before, -, -, count⟩
      · cases record with
        | error fault => cases added
        | ok given =>
            obtain ⟨keptNext, item, settled, -, longer⟩ :=
              appends.accepted t given next keptNow added
            obtain ⟨keptEnd, items, list, settledRest⟩ := ih keptNext later
            refine ⟨keptEnd, item :: items, ?_, .cons ⟨given, rfl, settled⟩ settledRest⟩
            rw [list, longer, List.append_assoc]
            rfl
      · exact absurd count (Nat.succ_ne_zero before).symm

end Appends

/-! ## Whole topologies -/

structure OfRecords (nodeRecords : List (Except (Fault α) (Node α)))
    (linkRecords : List (Except (Fault α) (Link α))) (t : Topology α) (skipped : Nat) : Prop where
  wellFormed : t.WellFormed
  nodes : t.nodes =
    firstOfEach (fun n => lowerCase n.name) [] (nodeRecords.filterMap Except.toOption)
  links : t.links =
    firstOfEach Link.id [] (linkRecords.filterMap fun record => record.toOption.bind t.settle?)
  count : t.nodes.length + t.links.length + skipped = nodeRecords.length + linkRecords.length

theorem of_records_phases {tolerance : α} {nodes : List (Except (Fault α) (Node α))}
    {links : List (Except (Fault α) (Link α))} {skipped : Nat}
    (made : ofRecords tolerance nodes links = .ok (t, skipped)) :
    ∃ base skippedNodes skippedLinks,
      takeRecords addNode nodes (empty tolerance) = .ok (base, skippedNodes) ∧
      takeRecords (fun t l => (t.addLink l).map (·.2)) links base = .ok (t, skippedLinks) ∧
      skippedNodes + skippedLinks = skipped := by
  unfold ofRecords at made
  cases nodesTaken : takeRecords addNode nodes (empty tolerance) with
  | error fault => simp [nodesTaken, bind, Except.bind] at made
  | ok afterNodes =>
    obtain ⟨base, skippedNodes⟩ := afterNodes
    cases linksTaken : takeRecords (fun t l => (t.addLink l).map (·.2)) links base with
    | error fault => simp [nodesTaken, linksTaken, bind, Except.bind] at made
    | ok afterLinks =>
      obtain ⟨t, skippedLinks⟩ := afterLinks
      simp only [nodesTaken, linksTaken, bind, Except.bind, pure, Except.pure, Except.ok.injEq,
        Prod.mk.injEq] at made
      obtain ⟨rfl, rfl⟩ := made
      exact ⟨base, skippedNodes, skippedLinks, rfl, linksTaken, rfl⟩

theorem of_records {tolerance : α} {nodes : List (Except (Fault α) (Node α))}
    {links : List (Except (Fault α) (Link α))} {skipped : Nat}
    (made : ofRecords tolerance nodes links = .ok (t, skipped)) :
    t.OfRecords nodes links skipped ∧ t.tieTolerance = tolerance := by
  obtain ⟨base, skippedNodes, skippedLinks, nodesTaken, linksTaken, rfl⟩ := of_records_phases made
  obtain ⟨⟨wellFormed, noLinks, tolerance⟩, nodesListed, nodesCount⟩ :=
    (add_node_appends (empty tolerance)).take_records ⟨.empty tolerance, rfl, rfl⟩ nodesTaken
  obtain ⟨⟨wellFormed', sameNodes, sameIndex, tolerance'⟩, linksListed, linksCount⟩ :=
    (add_link_appends base).take_records ⟨wellFormed, rfl, rfl, rfl⟩ linksTaken
  have settles : t.settle? = base.settle? := funext (settle_same_nodes sameNodes sameIndex)
  have noLinks' : base.links = [] := noLinks
  refine ⟨⟨wellFormed', ?_, ?_, ?_⟩, tolerance'.trans tolerance⟩
  · rw [sameNodes, nodesListed]
    simp [empty]
  · rw [linksListed, settles, noLinks']
    rfl
  · rw [sameNodes]
    simp only [empty, noLinks', List.length_nil, Nat.zero_add] at nodesCount linksCount
    omega

/-- Where no record is left out, the topology lists what was read from each of them, links with the
names of the nodes that they join. -/
theorem of_all_records {tolerance : α} {nodes : List (Except (Fault α) (Node α))}
    {links : List (Except (Fault α) (Link α))}
    (made : ofRecords tolerance nodes links = .ok (t, 0)) :
    List.Forall₂ (fun record n => record = .ok n) nodes t.nodes ∧
      List.Forall₂ (fun record stored => ∃ l, record = .ok l ∧ t.settle? l = some stored)
        links t.links := by
  obtain ⟨base, skippedNodes, skippedLinks, nodesTaken, linksTaken, count⟩ := of_records_phases made
  obtain rfl : skippedNodes = 0 := by omega
  obtain rfl : skippedLinks = 0 := by omega
  obtain ⟨⟨wellFormed, noLinks, -⟩, allNodes, nodesListed, nodesRead⟩ :=
    (add_node_appends (empty tolerance)).none_left_out ⟨.empty tolerance, rfl, rfl⟩ nodesTaken
  obtain ⟨⟨-, sameNodes, sameIndex, -⟩, allLinks, linksListed, linksRead⟩ :=
    (add_link_appends base).none_left_out ⟨wellFormed, rfl, rfl, rfl⟩ linksTaken
  have settles : t.settle? = base.settle? := funext (settle_same_nodes sameNodes sameIndex)
  have noLinks' : base.links = [] := noLinks
  have noNodes : (empty tolerance).nodes = [] := rfl
  rw [noNodes, List.nil_append] at nodesListed
  rw [noLinks', List.nil_append] at linksListed
  rw [sameNodes, nodesListed, linksListed, settles]
  refine ⟨nodesRead.imp ?_, linksRead⟩
  rintro record n ⟨given, readable, same⟩
  rw [readable, Option.some.inj same]

end Topology
end EdgePlacement
