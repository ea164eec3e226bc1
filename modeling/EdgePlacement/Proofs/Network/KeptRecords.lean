import EdgePlacement.Proofs.Network.Registries
import EdgePlacement.Proofs.Network.TakenRecords
import EdgePlacement.Record

/-!
# Leaving records out is a filter

A record that is left out has written nothing, although it may have failed at any point. What is
made of many records is therefore what the kept ones alone make, and whether a record is kept
depends on those that were kept before it and on nothing else.
-/

namespace EdgePlacement

open EdgePlacement.Text

set_option autoImplicit false

/-! ## Sieves -/

/-- Reads records one after the other, beginning with some that are kept already, and keeps exactly
those that fit beside the ones that were kept before them. -/
inductive Sieve {ρ : Type} (fits : List ρ → ρ → Prop) : List ρ → List ρ → List ρ → Prop where
  | done (before : List ρ) : Sieve fits before [] []
  | keep {before rest kept : List ρ} {record : ρ} (fit : fits before record)
      (later : Sieve fits (before ++ [record]) rest kept) :
      Sieve fits before (record :: rest) (record :: kept)
  | leave {before rest kept : List ρ} {record : ρ} (unfit : ¬ fits before record)
      (later : Sieve fits before rest kept) : Sieve fits before (record :: rest) kept

theorem Sieve.congr {ρ : Type} {fits fits' : List ρ → ρ → Prop} {before records kept : List ρ}
    (sieve : Sieve fits before records kept)
    (same : ∀ before record, fits before record ↔ fits' before record) :
    Sieve fits' before records kept := by
  induction sieve with
  | done before => exact .done before
  | keep fit _ ih => exact .keep ((same _ _).mp fit) ih
  | leave unfit _ ih => exact .leave (mt (same _ _).mpr unfit) ih

/-! ## Actions -/

namespace Action

variable {α σ β γ : Type} {first : Action σ α β} {next : β → Action σ α γ} {s : σ}

theorem bind_run (first : Action σ α β) (next : β → Action σ α γ) (s : σ) :
    (first >>= next) s =
      match first s with
      | (.ok result, s') => next result s'
      | (.error fault, s') => (.error fault, s') := by
  change ExceptT.bindCont next (first s).1 (first s).2 = _
  rcases first s with ⟨_ | _, _⟩ <;> rfl

theorem bind_ok_iff {result : γ} {s' : σ} : (first >>= next) s = (.ok result, s') ↔
    ∃ between middle, first s = (.ok between, middle) ∧ next between middle = (.ok result, s') := by
  constructor
  · intro ended
    rw [bind_run] at ended
    split at ended
    · rename_i between middle ran
      exact ⟨between, middle, ran, ended⟩
    · cases ended
  · rintro ⟨between, middle, ran, ended⟩
    rw [bind_ok ran]
    exact ended

theorem catch_run (act : Action σ α β) (handle : Fault α → Action σ α β) (s : σ) :
    (tryCatch act handle : Action σ α β) s =
      match act s with
      | (.ok result, s') => (.ok result, s')
      | (.error fault, s') => handle fault s' := by
  simp only [tryCatch, tryCatchThe, MonadExceptOf.tryCatch, ExceptT.tryCatch, ExceptT.mk, bind,
    StateT.bind]
  rcases act s with ⟨_ | _, _⟩ <;> rfl

end Action

namespace Registry

variable {α ρ β γ : Type} {add : ρ → Action (Registry α) α β} {r r' : Registry α}

/-! ## One record -/

def Atomic (add : ρ → Action (Registry α) α β) : Prop :=
  ∀ record r fault r', add record r = (.error fault, r') → r' = r

theorem add_node_atomic : Atomic (@addNode α) := by
  intro n r fault r' ended
  cases ended ▸ add_node_outcome r n with
  | refused => rfl

theorem store_link_outcome (r : Registry α) (l : Link α) :
    ∃ result r' l', storeLink l r = (result, r') ∧ LinkOutcome r l (result, r', l') :=
  ⟨_, _, _, rfl, add_link_outcome r l⟩

theorem store_link_atomic : Atomic (@storeLink α) := by
  intro l r fault r' ended
  obtain ⟨result, after, l', stored, outcome⟩ := store_link_outcome r l
  obtain ⟨rfl, rfl⟩ := Prod.mk.inj (stored.symm.trans ended)
  cases outcome with
  | unknown => rfl
  | repeated => rfl

def Fails (add : ρ → Action (Registry α) α β) (record : Except (Fault α) ρ) (r : Registry α)
    (fault : Fault α) : Prop :=
  record = .error fault ∨ ∃ item, record = .ok item ∧ add item r = (.error fault, r)

inductive RecordOutcome (add : ρ → Action (Registry α) α β) (record : Except (Fault α) ρ)
    (r : Registry α) : Except (Fault α) Nat × Registry α → Prop where
  | added (item : ρ) (result : β) (r' : Registry α) (readable : record = .ok item)
      (ended : add item r = (.ok result, r')) : RecordOutcome add record r (.ok 0, r')
  | leftOut (fault : Fault α) (failed : Fails add record r fault)
      (passed : Topology.passesOver fault = true) : RecordOutcome add record r (.ok 1, r)
  | stopped (fault : Fault α) (failed : Fails add record r fault)
      (fatal : Topology.passesOver fault = false) : RecordOutcome add record r (.error fault, r)

theorem take_record_outcome (atomic : Atomic add) (record : Except (Fault α) ρ)
    (r : Registry α) : RecordOutcome add record r (takeRecord add record r) := by
  have handled : ∀ fault, Fails add record r fault → RecordOutcome add record r
      ((if Topology.passesOver fault then return 1 else throw fault : Action _ α Nat) r) := by
    intro fault failed
    cases passed : Topology.passesOver fault with
    | true => exact .leftOut fault failed passed
    | false => exact .stopped fault failed passed
  unfold takeRecord
  rw [Action.catch_run]
  cases record with
  | error fault => exact handled fault (Or.inl rfl)
  | ok item =>
      have attempt : ((do let _ ← add (← (Except.ok item : Except (Fault α) ρ)); return 0) :
          Action (Registry α) α Nat) r = ((add item r).1.map fun _ => 0, (add item r).2) := by
        change (add item >>= fun _ => (return 0 : Action (Registry α) α Nat)) r = _
        rw [Action.bind_run]
        rcases add item r with ⟨_ | _, _⟩ <;> rfl
      rw [attempt]
      rcases ended : add item r with ⟨fault | result, r'⟩
      · obtain rfl := atomic item r fault r' ended
        exact handled fault (Or.inr ⟨item, rfl, ended⟩)
      · exact .added item result r' rfl ended

/-! ## Many records -/

theorem take_records_cons_iff {record : Except (Fault α) ρ} {rest : List (Except (Fault α) ρ)}
    {skipped : Nat} : takeRecords add (record :: rest) r = (.ok skipped, r') ↔
      ∃ leftOut later between, takeRecord add record r = (.ok leftOut, between) ∧
        takeRecords add rest between = (.ok later, r') ∧ leftOut + later = skipped := by
  rw [takeRecords, Action.bind_ok_iff]
  constructor
  · rintro ⟨leftOut, between, first, ended⟩
    obtain ⟨later, _, rest, returned⟩ := Action.bind_ok_iff.mp ended
    obtain ⟨count, rfl⟩ := Prod.mk.inj returned
    exact ⟨leftOut, later, between, first, rest, Except.ok.inj count⟩
  · rintro ⟨leftOut, later, between, first, rest, rfl⟩
    exact ⟨leftOut, between, first, Action.bind_ok_iff.mpr ⟨later, r', rest, rfl⟩⟩

theorem take_records_append {front back : List (Except (Fault α) ρ)} {r'' : Registry α}
    {skipped later : Nat} (first : takeRecords add front r = (.ok skipped, r'))
    (second : takeRecords add back r' = (.ok later, r'')) :
    takeRecords add (front ++ back) r = (.ok (skipped + later), r'') := by
  induction front generalizing r skipped with
  | nil =>
      obtain ⟨none, rfl⟩ := Prod.mk.inj first
      obtain rfl := Except.ok.inj none
      rw [List.nil_append, Nat.zero_add]
      exact second
  | cons record rest ih =>
      obtain ⟨leftOut, middle, between, taken, restTaken, rfl⟩ := take_records_cons_iff.mp first
      exact take_records_cons_iff.mpr
        ⟨leftOut, middle + later, between, taken, ih restTaken, by omega⟩

/-- The record can be read, and the addition accepts it where those that are kept have led. -/
def Fits (add : ρ → Action (Registry α) α β) (read : γ → Except (Fault α) ρ) (base : Registry α)
    (before : List γ) (record : γ) : Prop :=
  ∃ item r, read record = .ok item ∧ takeRecords add (before.map read) base = (.ok 0, r) ∧
    ∃ result, (add item r).1 = .ok result

variable {read : γ → Except (Fault α) ρ} {base : Registry α} {before : List γ} {record : γ}

theorem unfit_of_failed {fault : Fault α}
    (start : takeRecords add (before.map read) base = (.ok 0, r))
    (failed : Fails add (read record) r fault) : ¬ Fits add read base before record := by
  rintro ⟨item, r', readable, start', result, accepted⟩
  obtain ⟨-, rfl⟩ := Prod.mk.inj (start.symm.trans start')
  rcases failed with unreadable | ⟨item', readable', refused⟩
  · rw [readable] at unreadable
    cases unreadable
  · obtain rfl := Except.ok.inj (readable.symm.trans readable')
    rw [refused] at accepted
    cases accepted

/-- What is made of records after those that are kept is what all kept ones make. The induction
carries what the records that are kept so far have made of the base. -/
theorem take_records_sieved (atomic : Atomic add) {records : List γ} {skipped : Nat}
    (start : takeRecords add (before.map read) base = (.ok 0, r))
    (taken : takeRecords add (records.map read) r = (.ok skipped, r')) :
    ∃ kept, Sieve (Fits add read base) before records kept ∧
      takeRecords add ((before ++ kept).map read) base = (.ok 0, r') := by
  induction records generalizing before r skipped with
  | nil =>
      obtain ⟨none, rfl⟩ := Prod.mk.inj taken
      obtain rfl := Except.ok.inj none
      exact ⟨[], .done before, by rwa [List.append_nil]⟩
  | cons record rest ih =>
      obtain ⟨leftOut, later, between, first, restTaken, rfl⟩ := take_records_cons_iff.mp taken
      have outcome := take_record_outcome atomic (read record) r
      rw [first] at outcome
      cases outcome with
      | added item result _ readable ended =>
          have alone : takeRecords add [read record] r = (.ok 0, between) :=
            take_records_cons_iff.mpr ⟨0, 0, between, first, rfl, rfl⟩
          have start' :
              takeRecords add ((before ++ [record]).map read) base = (.ok 0, between) := by
            rw [List.map_append]
            exact take_records_append start alone
          obtain ⟨kept, sieve, again⟩ := ih start' restTaken
          refine ⟨record :: kept, .keep ⟨item, r, readable, start, result, ?_⟩ sieve, ?_⟩
          · rw [ended]
          · rwa [List.append_cons]
      | leftOut fault failed passed =>
          obtain ⟨kept, sieve, again⟩ := ih start restTaken
          exact ⟨kept, .leave (unfit_of_failed start failed) sieve, again⟩

theorem kept_records_alone (atomic : Atomic add) {records : List γ} {skipped : Nat}
    (taken : takeRecords add (records.map read) r = (.ok skipped, r')) :
    ∃ kept, Sieve (Fits add read r) [] records kept ∧
      takeRecords add (kept.map read) r = (.ok 0, r') := by
  have nothing : takeRecords add (([] : List γ).map read) r = (.ok 0, r) := rfl
  exact take_records_sieved atomic nothing taken

/-! ## Registries and topologies -/

/-- The addition to the registry and the one to its topology come to the same. -/
def Refines (add : ρ → Action (Registry α) α β)
    (addTo : Topology α → ρ → Except (Fault α) (Topology α)) : Prop :=
  ∀ record r result r', r.InStep → add record r = (result, r') →
    r'.InStep ∧ addTo r.topology record = result.map fun _ => r'.topology

theorem add_node_refines : Refines (@addNode α) Topology.addNode := by
  intro n r result r' inStep ended
  have outcome : NodeOutcome r n (result, r') := ended ▸ add_node_outcome r n
  refine ⟨?_, outcome.refines inStep⟩
  cases outcome with
  | refused => exact inStep
  | added free => exact inStep.with_node free

theorem store_link_refines : Refines (@storeLink α) fun t l => (t.addLink l).map (·.2) := by
  intro l r result r' inStep ended
  obtain ⟨stored, after, l', storing, outcome⟩ := store_link_outcome r l
  obtain ⟨rfl, rfl⟩ := Prod.mk.inj (storing.symm.trans ended)
  have refined := outcome.refines inStep
  constructor
  · cases outcome with
    | unknown => exact inStep
    | repeated => exact inStep
    | added first second firstFound secondFound new =>
        exact inStep.with_link firstFound secondFound new
  · change (r.topology.addLink l).map (·.2) = _
    rw [refined]
    cases stored <;> rfl

theorem Fails.in_topology {addTo : Topology α → ρ → Except (Fault α) (Topology α)}
    {record : Except (Fault α) ρ} {fault : Fault α} (failed : Fails add record r fault)
    (refines : Refines add addTo) (inStep : r.InStep) :
    record.bind (addTo r.topology) = .error fault := by
  rcases failed with unreadable | ⟨item, readable, refused⟩
  · rw [unreadable]
    rfl
  · rw [readable]
    exact (refines item r _ r inStep refused).2

theorem take_records_run (record : Except (Fault α) ρ) (rest : List (Except (Fault α) ρ))
    (r : Registry α) : takeRecords add (record :: rest) r =
      match takeRecord add record r with
      | (.ok leftOut, r') =>
        ((takeRecords add rest r').1.map (leftOut + ·), (takeRecords add rest r').2)
      | (.error fault, r') => (.error fault, r') := by
  rw [takeRecords, Action.bind_run]
  rcases takeRecord add record r with ⟨fault | leftOut, r'⟩
  · rfl
  · dsimp only
    rw [Action.bind_run]
    rcases takeRecords add rest r' with ⟨_ | _, _⟩ <;> rfl

theorem take_records_refines {addTo : Topology α → ρ → Except (Fault α) (Topology α)}
    (atomic : Atomic add) (refines : Refines add addTo) (inStep : r.InStep)
    (records : List (Except (Fault α) ρ)) :
    (takeRecords add records r).2.InStep ∧
      Topology.takeRecords addTo records r.topology =
        (takeRecords add records r).1.map fun skipped =>
          ((takeRecords add records r).2.topology, skipped) := by
  induction records generalizing r with
  | nil => exact ⟨inStep, rfl⟩
  | cons record rest ih =>
      have outcome := take_record_outcome atomic record r
      rw [take_records_run, Topology.takeRecords]
      generalize takeRecord add record r = ending at outcome
      cases outcome with
      | added item result r' readable ended =>
          obtain ⟨inStep', refined⟩ := refines item r _ r' inStep ended
          have added : record.bind (addTo r.topology) = .ok r'.topology := by
            rw [readable]
            exact refined
          obtain ⟨inStepEnd, later⟩ := ih inStep'
          rw [added]
          refine ⟨inStepEnd, later.trans ?_⟩
          dsimp only
          rcases takeRecords add rest r' with ⟨_ | _, _⟩ <;> simp [Except.map]
      | leftOut fault failed passed =>
          obtain ⟨inStepEnd, later⟩ := ih inStep
          rw [failed.in_topology refines inStep]
          refine ⟨inStepEnd, ?_⟩
          simp only [passed, if_true, later]
          rcases takeRecords add rest r with ⟨_ | _, _⟩ <;> simp [Except.map, Nat.add_comm]
      | stopped fault failed fatal =>
          rw [failed.in_topology refines inStep]
          refine ⟨inStep, ?_⟩
          simp only [fatal, Bool.false_eq_true, if_false]
          rfl

/-! ## Nodes and links -/

variable {tolerance : α} {nodes : List (Except (Fault α) (Node α))}
  {links : List (Except (Fault α) (Link α))} {skipped : Nat}

theorem of_records_iff : ofRecords tolerance nodes links = .ok (r, skipped) ↔
    ∃ skippedNodes skippedLinks base,
      takeRecords addNode nodes (empty tolerance) = (.ok skippedNodes, base) ∧
      takeRecords storeLink links base = (.ok skippedLinks, r) ∧
      skippedNodes + skippedLinks = skipped := by
  have whole : ofRecords tolerance nodes links = .ok (r, skipped) ↔
      takeAll nodes links (empty tolerance) = (.ok skipped, r) := by
    unfold ofRecords
    constructor
    · intro made
      split at made
      · rename_i ended
        cases made
        exact ended
      · cases made
    · intro ended
      rw [ended]
  rw [whole, takeAll, Action.bind_ok_iff]
  constructor
  · rintro ⟨skippedNodes, base, nodesTaken, ended⟩
    obtain ⟨skippedLinks, _, linksTaken, returned⟩ := Action.bind_ok_iff.mp ended
    obtain ⟨count, rfl⟩ := Prod.mk.inj returned
    exact ⟨skippedNodes, skippedLinks, base, nodesTaken, linksTaken, Except.ok.inj count⟩
  · rintro ⟨skippedNodes, skippedLinks, base, nodesTaken, linksTaken, rfl⟩
    refine ⟨skippedNodes, base, nodesTaken, Action.bind_ok_iff.mpr ?_⟩
    exact ⟨skippedLinks, r, linksTaken, rfl⟩

theorem of_records_refines (tolerance : α) (nodes : List (Except (Fault α) (Node α)))
    (links : List (Except (Fault α) (Link α))) :
    Topology.ofRecords tolerance nodes links =
      (ofRecords tolerance nodes links).map fun made => (made.1.topology, made.2) := by
  have same : (empty tolerance).topology = Topology.empty tolerance := rfl
  obtain ⟨inStep, nodesTaken⟩ := take_records_refines add_node_atomic add_node_refines
    (InStep.empty tolerance) nodes
  -- The links are taken on what the nodes have made, whatever that is, as long as it is in step.
  unfold ofRecords Topology.ofRecords takeAll
  rw [Action.bind_run, ← same, nodesTaken]
  clear nodesTaken
  generalize takeRecords addNode nodes (empty tolerance) = ended at inStep ⊢
  rcases ended with ⟨_ | skippedNodes, base⟩
  · rfl
  · obtain ⟨-, linksTaken⟩ := take_records_refines store_link_atomic store_link_refines
      inStep links
    dsimp only [Except.map] at linksTaken ⊢
    rw [Action.bind_run]
    change (Topology.takeRecords _ links base.topology).bind _ = _
    dsimp only
    rw [linksTaken]
    rcases takeRecords storeLink links base with ⟨_ | _, _⟩ <;> rfl

theorem of_node_records_iff : ofRecords tolerance nodes [] = .ok (r, 0) ↔
    takeRecords addNode nodes (empty tolerance) = (.ok 0, r) := by
  rw [of_records_iff]
  constructor
  · rintro ⟨skippedNodes, skippedLinks, base, nodesTaken, linksTaken, count⟩
    obtain ⟨-, rfl⟩ := Prod.mk.inj linksTaken
    obtain rfl : skippedNodes = 0 := by omega
    exact nodesTaken
  · intro nodesTaken
    exact ⟨0, 0, r, nodesTaken, rfl, rfl⟩

theorem of_link_records_iff {base : Registry α}
    (nodesTaken : takeRecords addNode nodes (empty tolerance) = (.ok 0, base)) :
    ofRecords tolerance nodes links = .ok (r, 0) ↔
      takeRecords storeLink links base = (.ok 0, r) := by
  rw [of_records_iff]
  constructor
  · rintro ⟨skippedNodes, skippedLinks, base', nodesTaken', linksTaken, count⟩
    obtain ⟨-, rfl⟩ := Prod.mk.inj (nodesTaken.symm.trans nodesTaken')
    obtain rfl : skippedLinks = 0 := by omega
    exact linksTaken
  · intro linksTaken
    exact ⟨0, 0, base, nodesTaken, linksTaken, rfl⟩

end Registry

/-! ## Records of any values -/

open EdgePlacement.Topology (usualTieTolerance)

def NodeFits (before : List RawValue) (record : RawValue) : Prop :=
  ∃ n r, Node.ofRecord record = .ok n ∧
    Registry.ofRecords usualTieTolerance (before.map Node.ofRecord) [] = .ok (r, 0) ∧
    (Registry.addNode n r).1 = .ok n

def LinkFits (nodes before : List RawValue) (record : RawValue) : Prop :=
  ∃ l r, Link.ofRecord record = .ok l ∧
    Registry.ofRecords usualTieTolerance (nodes.map Node.ofRecord) (before.map Link.ofRecord) =
      .ok (r, 0) ∧
    (Registry.storeLink l r).1 = .ok ()

theorem node_fits_iff (before : List RawValue) (record : RawValue) :
    Registry.Fits Registry.addNode Node.ofRecord (Registry.empty usualTieTolerance) before record ↔
      NodeFits before record := by
  unfold NodeFits Registry.Fits
  simp only [Registry.of_node_records_iff]
  constructor
  · rintro ⟨n, r, readable, start, result, accepted⟩
    refine ⟨n, r, readable, start, ?_⟩
    generalize ended : Registry.addNode n r = ending at accepted ⊢
    cases ended ▸ Registry.add_node_outcome r n with
    | refused => cases accepted
    | added => rfl
  · rintro ⟨n, r, readable, start, accepted⟩
    exact ⟨n, r, readable, start, n, accepted⟩

theorem link_fits_iff {nodes : List RawValue} {base : Registry Float}
    (nodesTaken : Registry.takeRecords Registry.addNode (nodes.map Node.ofRecord)
      (Registry.empty usualTieTolerance) = (.ok 0, base)) (before : List RawValue)
    (record : RawValue) :
    Registry.Fits Registry.storeLink Link.ofRecord base before record ↔
      LinkFits nodes before record := by
  unfold LinkFits Registry.Fits
  simp only [Registry.of_link_records_iff nodesTaken]
  constructor
  · rintro ⟨l, r, readable, start, ⟨⟩, accepted⟩
    exact ⟨l, r, readable, start, accepted⟩
  · rintro ⟨l, r, readable, start, accepted⟩
    exact ⟨l, r, readable, start, (), accepted⟩

/-- A topology and the records that it is made of alone, kept from all that were given. -/
structure Filtered (nodeRecords linkRecords keptNodes keptLinks : List RawValue)
    (t : Topology Float) (skipped : Nat) : Prop where
  count : t.nodes.length + t.links.length + skipped = nodeRecords.length + linkRecords.length
  nodes : Sieve NodeFits [] nodeRecords keptNodes
  links : Sieve (LinkFits keptNodes) [] linkRecords keptLinks
  listedNodes : List.Forall₂ (fun record n => Node.ofRecord record = .ok n) keptNodes t.nodes
  listedLinks : List.Forall₂ (fun record stored => ∃ l, Link.ofRecord record = .ok l ∧
    t.settle? l = some stored) keptLinks t.links
  alone : Topology.ofRecords usualTieTolerance (keptNodes.map Node.ofRecord)
    (keptLinks.map Link.ofRecord) = .ok (t, 0)

/-- What is made of records is what the kept ones alone make, down to the index of names, the set of
ids and the multigraph; and each record is kept exactly if it fits in after those kept before it. -/
theorem kept_records_make_same_topology (nodeRecords linkRecords : List RawValue)
    (t : Topology Float) (skipped : Nat)
    (made : Topology.ofRecords usualTieTolerance (nodeRecords.map Node.ofRecord)
      (linkRecords.map Link.ofRecord) = .ok (t, skipped)) :
    ∃ r keptNodes keptLinks,
      Registry.ofRecords usualTieTolerance (nodeRecords.map Node.ofRecord)
        (linkRecords.map Link.ofRecord) = .ok (r, skipped) ∧ r.topology = t ∧
      Registry.ofRecords usualTieTolerance (keptNodes.map Node.ofRecord)
        (keptLinks.map Link.ofRecord) = .ok (r, 0) ∧
      Filtered nodeRecords linkRecords keptNodes keptLinks t skipped := by
  have refined := Registry.of_records_refines usualTieTolerance (nodeRecords.map Node.ofRecord)
    (linkRecords.map Link.ofRecord)
  rw [made] at refined
  cases intake : Registry.ofRecords usualTieTolerance (nodeRecords.map Node.ofRecord)
      (linkRecords.map Link.ofRecord) with
  | error fault =>
      rw [intake] at refined
      cases refined
  | ok ending =>
      obtain ⟨r, skipped'⟩ := ending
      rw [intake] at refined
      obtain ⟨rfl, rfl⟩ := Prod.mk.inj (Except.ok.inj refined)
      obtain ⟨skippedNodes, skippedLinks, base, nodesTaken, linksTaken, rfl⟩ :=
        Registry.of_records_iff.mp intake
      obtain ⟨keptNodes, nodeSieve, nodesAlone⟩ :=
        Registry.kept_records_alone Registry.add_node_atomic nodesTaken
      obtain ⟨keptLinks, linkSieve, linksAlone⟩ :=
        Registry.kept_records_alone Registry.store_link_atomic linksTaken
      have alone := (Registry.of_link_records_iff nodesAlone).mpr linksAlone
      have topologyAlone : Topology.ofRecords usualTieTolerance (keptNodes.map Node.ofRecord)
          (keptLinks.map Link.ofRecord) = .ok (r.topology, 0) := by
        rw [Registry.of_records_refines, alone]
        rfl
      obtain ⟨listedNodes, listedLinks⟩ := Topology.of_all_records topologyAlone
      rw [List.forall₂_map_left_iff] at listedNodes listedLinks
      have count := (Topology.of_records made).1.count
      rw [List.length_map, List.length_map] at count
      exact ⟨r, keptNodes, keptLinks, rfl, rfl, alone, {
        count
        nodes := nodeSieve.congr node_fits_iff
        links := linkSieve.congr (link_fits_iff nodesAlone)
        listedNodes
        listedLinks
        alone := topologyAlone }⟩

def mixedNodeRecords : List RawValue :=
  [.sequence [.text "A", .whole 4, .number 2], .sequence [.text "a", .whole 9, .whole 9],
    .text "nobody", .sequence [.text "B", .text "much", .whole 1],
    .sequence [.text "B", .whole 3, .flag true, .whole 1, .whole 1]]

def mixedLinkRecords : List RawValue :=
  [.sequence [.text "ab", .text "a", .text "B", .whole 5, .whole 1],
    .sequence [.text "ab", .text "A", .text "A", .whole 5, .whole 1],
    .sequence [.text "az", .text "A", .text "Z", .whole 5, .whole 1], .absent,
    .sequence [.text "bb", .text "b", .text "b", .whole 5, .whole 1]]

def mixedTopology : Topology Float where
  nodes := [Node.fresh "A" ⟨4, 2, 0, 0⟩, Node.fresh "B" ⟨3, 1, 1, 1⟩]
  links := [⟨"ab", "A", "B", 5, 1, 0⟩, ⟨"bb", "B", "B", 5, 1, 0⟩]
  canonical := [("a", "A"), ("b", "B")]
  tieTolerance := Topology.usualTieTolerance

theorem mixed_records_filtered : ∃ r keptNodes keptLinks,
    Registry.ofRecords usualTieTolerance (mixedNodeRecords.map Node.ofRecord)
      (mixedLinkRecords.map Link.ofRecord) = .ok (r, 6) ∧ r.topology = mixedTopology ∧
    Registry.ofRecords usualTieTolerance (keptNodes.map Node.ofRecord)
      (keptLinks.map Link.ofRecord) = .ok (r, 0) ∧
    Filtered mixedNodeRecords mixedLinkRecords keptNodes keptLinks mixedTopology 6 := by
  have returned : (Topology.ofRecords usualTieTolerance (mixedNodeRecords.map Node.ofRecord)
      (mixedLinkRecords.map Link.ofRecord)).toOption = some (mixedTopology, 6) := by decide +kernel
  have made : Topology.ofRecords usualTieTolerance (mixedNodeRecords.map Node.ofRecord)
      (mixedLinkRecords.map Link.ofRecord) = .ok (mixedTopology, 6) := by
    generalize Topology.ofRecords usualTieTolerance (mixedNodeRecords.map Node.ofRecord)
      (mixedLinkRecords.map Link.ofRecord) = result at returned
    cases result with
    | error fault => cases returned
    | ok ending => exact congrArg Except.ok (Option.some.inj returned)
  exact kept_records_make_same_topology mixedNodeRecords mixedLinkRecords mixedTopology 6 made

end EdgePlacement
