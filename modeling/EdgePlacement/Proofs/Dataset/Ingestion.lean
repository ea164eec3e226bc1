import EdgePlacement.Proofs.Dataset.Loading
import Mathlib.Algebra.GroupWithZero.Nat

/-!
# Datasets account for their rows

A dataset that is loaded keeps every row of its tables once or counts it once. What is kept stands
in the order of the rows, under the first usable row of its name, and demands join services that
are kept.
-/

namespace EdgePlacement

open EdgePlacement.Decimal EdgePlacement.Random EdgePlacement.Text

set_option autoImplicit false

/-! ## Sums of counts -/

namespace Dataset

section Sums

variable {α : Type}

theorem skipped_is_sum (data : Dataset α) : data.skipped = data.skippedByTable.values.sum := by
  rw [skipped, List.sum_eq_foldl]

variable [Quantity α] [CellReading α] {tables : DatasetTables} {data : Dataset α}

theorem CountsRows.skipped_total (counts : data.CountsRows tables) :
    data.skipped = data.count Folder.nodes + data.count Folder.links + data.count topologyHeading +
      data.count Folder.services +
      (tables.demands.map fun _ => data.count Folder.demands).getD 0 := by
  have headings := counts.headings
  have distinct : data.skippedByTable.keys.Nodup := by
    rw [headings]
    cases tables.demands <;> simp only [Option.map_none, Option.map_some] <;> decide
  rw [skipped_is_sum, OrderedMap.values_by_keys distinct 0, headings]
  cases tables.demands <;> simp [count, Nat.add_assoc]

theorem CountsRows.total (counts : data.CountsRows tables) :
    tables.rowCount =
      data.topology.nodes.length + data.topology.links.length + data.services.length +
        (tables.demands.map fun _ => data.demands.length).getD 0 + data.skipped := by
  have nodeRows := counts.nodeRows
  have linkRows := counts.linkRows
  have records := counts.records
  have serviceRows := counts.serviceRows
  have skipped := counts.skipped_total
  cases present : tables.demands with
  | none =>
      simp only [DatasetTables.rowCount, present, Option.map_none, Option.getD_none] at skipped ⊢
      omega
  | some table =>
      have demandRows := counts.demandRows table present
      simp only [DatasetTables.rowCount, present, Option.map_some, Option.getD_some] at skipped ⊢
      omega

end Sums
end Dataset

variable {α : Type} [Quantity α] [Denoted α]

/-! ## Demands -/

theorem chain_from_pairs {range : WholeRange} {pairs : List (String × String)}
    {g : MersenneTwister} {demands : List (Demand α)}
    (returned : chainFrom range pairs g = .ok demands) :
    demands.map (fun d => (d.source, d.target)) = pairs := by
  induction pairs generalizing g demands with
  | nil =>
      cases returned
      rfl
  | cons pair rest ih =>
      obtain ⟨⟨drawn, g'⟩, -, onward⟩ := bind_returned returned
      simp only at onward
      split at onward
      · cases onward
      · rename_i bandwidth denoted
        obtain ⟨demand, checked, onward⟩ := bind_returned onward
        obtain ⟨later, chained, result⟩ := bind_returned onward
        cases result
        unfold Demand.checked at checked
        split_ifs at checked
        cases checked
        rw [List.map_cons, ih chained]

namespace Dataset

variable [CellReading α] {tables : DatasetTables} {unseeded : MersenneTwister} {seed : Option Int}
  {data : Dataset α}

theorem MadeOf.chain_pairs (made : data.MadeOf tables unseeded seed)
    (absent : tables.demands = none) :
    data.demands.map (fun d => (d.source, d.target)) =
      data.serviceNames.zip data.serviceNames.tail :=
  chain_from_pairs (made.chain absent)

theorem MadeOf.demands_join (made : data.MadeOf tables unseeded seed) :
    ∀ d ∈ data.demands, d.source ∈ data.serviceNames ∧ d.target ∈ data.serviceNames := by
  intro d listed
  cases present : tables.demands with
  | some table =>
      rw [made.demands table present] at listed
      obtain ⟨row, -, read⟩ := List.mem_filterMap.mp listed
      obtain ⟨-, -, -, source, target, -⟩ := demand_of_row read
      exact ⟨source, target⟩
  | none =>
      have pair : (d.source, d.target) ∈ data.serviceNames.zip data.serviceNames.tail := by
        rw [← made.chain_pairs present]
        exact List.mem_map.mpr ⟨d, listed, rfl⟩
      obtain ⟨source, target⟩ := List.of_mem_zip pair
      exact ⟨source, List.mem_of_mem_tail target⟩

/-! ## The account -/

structure AccountsFor (data : Dataset α) (tables : DatasetTables) : Prop
    extends data.CountsRows tables where
  nodes : KeepsFirsts tables.nodes.rows tables.node? (fun n => lowerCase n.name) data.topology.nodes
  links : KeepsFirsts tables.links.rows (tables.link? data.topology) Link.id data.topology.links
  services : KeepsFirsts tables.services.rows tables.service? Service.name data.services
  demands : ∀ table, tables.demands = some table →
    data.demands = table.rows.filterMap (table.demand? data.serviceNames)
  chain : tables.demands = none →
    data.demands.map (fun d => (d.source, d.target)) = data.serviceNames.zip data.serviceNames.tail
  joined : ∀ d ∈ data.demands, d.source ∈ data.serviceNames ∧ d.target ∈ data.serviceNames
  total : tables.rowCount =
    data.topology.nodes.length + data.topology.links.length + data.services.length +
      (tables.demands.map fun _ => data.demands.length).getD 0 + data.skipped
  skipped : data.skipped = data.skippedByTable.values.sum

/-- A dataset that is loaded from a folder accounts for the rows of the tables that the folder
holds. -/
theorem loaded_dataset_accounts_for_rows {folder : Folder} {unseeded : MersenneTwister}
    {seed : Option Int} {data : Dataset α} (loaded : load folder unseeded seed = .ok data) :
    ∃ tables : DatasetTables, tables.HeldBy α folder ∧ data.AccountsFor tables := by
  obtain ⟨tables, held, made⟩ := load_makes loaded
  refine ⟨tables, held, ?_⟩
  constructor
  case toCountsRows => exact made.toCountsRows
  case nodes => exact made.nodes_kept
  case links => exact made.links_kept
  case services => exact made.services_kept
  case demands => exact fun _ present => made.demands_kept present
  case chain => exact made.chain_pairs
  case joined => exact made.demands_join
  case total => exact made.total
  case skipped => exact data.skipped_is_sum

/-- A folder with a row of each kind that is left out: a name in other letter case, a number that is
none, a link to an unknown node, a repeated name, a demand of an unknown service. -/
def mixedFolder : Folder := ⟨[
  (Folder.nodes, "node_id,storage,compute,uplink,downlink\nA,9,9,9,9\na,1,1,1,1\nB,1,x,1,1\n"),
  (Folder.links, "link_id,src,dst,capacity,latency\nl,a,A,10,1\nm,A,B,5,1\n"),
  (Folder.services, "service_id,cpu_capacity_ghz,memory_capacity_gb,execution_cost," ++
    "vm_fixed_latency_ms\ns,1,1,1,1\ns,2,2,2,2\nt,0.5,1,1,1\n"),
  (Folder.demands, "service_a,service_b,bandwidth\ns,t,3\ns,u,3\n")]⟩

theorem mixed_folder_accounts_for_rows :
    ∃ data : Dataset Rat, load mixedFolder (MersenneTwister.ofSeed 0) none = .ok data ∧
      data.serviceNames = ["s", "t"] ∧ data.skipped = 5 ∧
      ∃ tables : DatasetTables, tables.HeldBy Rat mixedFolder ∧ data.AccountsFor tables := by
  have outcome : (load (α := Rat) mixedFolder (MersenneTwister.ofSeed 0) none).toOption.map
      (fun data => (data.serviceNames, data.skipped)) = some (["s", "t"], 5) := by
    decide +kernel
  obtain ⟨data, loaded, same⟩ := Option.map_eq_some_iff.mp outcome
  simp only [Prod.mk.injEq] at same
  have returned := to_option_eq_some_iff.mp loaded
  exact ⟨data, returned, same.1, same.2, loaded_dataset_accounts_for_rows returned⟩

end Dataset
end EdgePlacement
