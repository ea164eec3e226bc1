import EdgePlacement.Dataset.Folder
import EdgePlacement.Proofs.Dataset.TakenRows
import EdgePlacement.Proofs.Network.TakenRecords

/-!
# Loading a dataset

What the parts of a loaded dataset are made of, table by table: the first usable row of each name of
a node, a link or a service, and the demands between services that are kept. Each of the counts says
how many rows or records were left out.
-/

namespace EdgePlacement

open EdgePlacement.Decimal EdgePlacement.Random EdgePlacement.Text

set_option autoImplicit false

/-! ## Tables of a folder -/

/-- The folder has a file of this name that holds this table. -/
def Folder.Holds (α : Type) (folder : Folder) (name : String) (layout : RowLayout)
    (table : TextTable) : Prop :=
  ∃ text, folder.get? name = some text ∧
    readTable name text layout.columns = (.ok table : Except (Fault α) TextTable)

structure DatasetTables where
  nodes : TextTable
  links : TextTable
  services : TextTable
  demands : Option TextTable

namespace DatasetTables

structure HeldBy (α : Type) (folder : Folder) (tables : DatasetTables) : Prop where
  nodes : folder.Holds α Folder.nodes nodeLayout tables.nodes
  links : folder.Holds α Folder.links linkLayout tables.links
  services : folder.Holds α Folder.services serviceLayout tables.services
  demands : ∀ table, tables.demands = some table → folder.Holds α Folder.demands demandLayout table
  noDemands : tables.demands = none → folder.get? Folder.demands = none

def rowCount (tables : DatasetTables) : Nat :=
  tables.nodes.rows.length + tables.links.rows.length + tables.services.rows.length +
    (tables.demands.map fun table => table.rows.length).getD 0

end DatasetTables

variable {α : Type} [Quantity α] [CellReading α]

/-- The complete rows of a table. -/
def RowLayout.complete (layout : RowLayout) (table : TextTable) : List (DataRow α) :=
  table.rows.filterMap (layout.read? table)

theorem held_of_text {folder : Folder} {name text : String} {layout : RowLayout}
    {rows : Taken (DataRow α)} (found : folder.text name = (.ok text : Except (Fault α) _))
    (read : readRows name text layout = .ok rows) :
    ∃ table, folder.Holds α name layout table ∧ rows.items = layout.complete table ∧
      rows.items.length + rows.skipped = table.rows.length := by
  have held : folder.get? name = some text := by
    unfold Folder.text at found
    split at found
    · rename_i held
      cases found
      exact held
    · cases found
  obtain ⟨table, parsed, items, count⟩ := read_rows_account read
  exact ⟨table, ⟨text, held, parsed⟩, items, count⟩

/-! ## What rows make -/

namespace DatasetTables

def node? (tables : DatasetTables) (row : List (Option String)) : Option (Node α) :=
  (nodeLayout.read? tables.nodes row).bind fun data => (Node.ofRow data).toOption

def link? (tables : DatasetTables) (t : Topology α) (row : List (Option String)) :
    Option (Link α) :=
  (linkLayout.read? tables.links row).bind fun data => (Link.ofRow data).toOption.bind t.settle?

def service? (tables : DatasetTables) (row : List (Option String)) : Option (Service α) :=
  (serviceLayout.read? tables.services row).bind fun data => (Service.ofRow data).toOption

end DatasetTables

def TextTable.demand? (table : TextTable) (known : List String) (row : List (Option String)) :
    Option (Demand α) :=
  (demandLayout.read? table row).bind (Demand.read? known)

namespace Dataset

def serviceNames (data : Dataset α) : List String :=
  data.services.map (·.name)

def count (data : Dataset α) (heading : String) : Nat :=
  (data.skippedByTable.get? heading).getD 0

/-! ## How a dataset is made -/

/-- Every row is kept or counted under one heading: rows that are not complete under that of their
table, and so are rows that make no service or demand; nodes and links that the topology refuses
have a heading of their own. -/
structure CountsRows (data : Dataset α) (tables : DatasetTables) : Prop where
  headings : data.skippedByTable.keys =
    [Folder.nodes, Folder.links, topologyHeading, Folder.services] ++
      (tables.demands.map fun _ => Folder.demands).toList
  nodeRows : (nodeLayout.complete (α := α) tables.nodes).length + data.count Folder.nodes =
    tables.nodes.rows.length
  linkRows : (linkLayout.complete (α := α) tables.links).length + data.count Folder.links =
    tables.links.rows.length
  records : data.topology.nodes.length + data.topology.links.length + data.count topologyHeading =
    (nodeLayout.complete (α := α) tables.nodes).length +
      (linkLayout.complete (α := α) tables.links).length
  serviceRows : data.services.length + data.count Folder.services = tables.services.rows.length
  demandRows : ∀ table, tables.demands = some table →
    data.demands.length + data.count Folder.demands = table.rows.length

variable [Denoted α]

structure MadeOf (tables : DatasetTables) (unseeded : MersenneTwister) (seed : Option Int)
    (data : Dataset α) : Prop extends data.CountsRows tables where
  topology : data.topology.OfRecords ((nodeLayout.complete tables.nodes).map Node.ofRow)
    ((linkLayout.complete tables.links).map Link.ofRow) (data.count topologyHeading)
  tolerance : data.topology.tieTolerance = Topology.usualTieTolerance
  services : data.services = firstOfEach Service.name []
    ((serviceLayout.complete tables.services).filterMap fun row => (Service.ofRow row).toOption)
  demands : ∀ table, tables.demands = some table →
    data.demands = (demandLayout.complete table).filterMap (Demand.read? data.serviceNames)
  chain : tables.demands = none →
    chainDemands data.serviceNames chainBandwidths unseeded seed = .ok data.demands

omit [Denoted α] in
theorem read_services_account {folder : Folder} {text : String} {services : Taken (Service α)}
    (found : folder.text Folder.services = (.ok text : Except (Fault α) _))
    (read : readServices Folder.services text = .ok services) :
    ∃ table, folder.Holds α Folder.services serviceLayout table ∧
      services.items = firstOfEach Service.name []
        ((serviceLayout.complete table).filterMap fun row => (Service.ofRow row).toOption) ∧
      services.items.length + services.skipped = table.rows.length := by
  obtain ⟨rows, rowsRead, onward⟩ := bind_returned read
  obtain ⟨taken, servicesTaken, result⟩ := bind_returned onward
  cases result
  obtain ⟨table, held, complete, rowCount⟩ := held_of_text found rowsRead
  obtain ⟨items, count⟩ := take_services_account servicesTaken
  refine ⟨table, held, complete ▸ items, ?_⟩
  change taken.items.length + (rows.skipped + taken.skipped) = _
  omega

theorem load_demands_account {folder : Folder} {known : List String}
    {unseeded : MersenneTwister} {seed : Option Int} {demands : List (Demand α)}
    {skipped : List (String × Nat)}
    (loaded : loadDemands folder known unseeded seed = .ok (demands, skipped)) :
    (folder.get? Folder.demands = none ∧ skipped = [] ∧
      chainDemands known chainBandwidths unseeded seed = .ok demands) ∨
    ∃ table count, folder.Holds α Folder.demands demandLayout table ∧
      skipped = [(Folder.demands, count)] ∧
      demands = (demandLayout.complete table).filterMap (Demand.read? known) ∧
      demands.length + count = table.rows.length := by
  unfold loadDemands at loaded
  split at loaded
  · rename_i text held
    obtain ⟨read, demandsRead, result⟩ := bind_returned loaded
    cases result
    obtain ⟨rows, rowsRead, onward⟩ := bind_returned demandsRead
    obtain ⟨taken, demandsTaken, result⟩ := bind_returned onward
    cases result
    have found : folder.text Folder.demands = (.ok text : Except (Fault α) _) := by
      simp [Folder.text, held]
    obtain ⟨table, held', complete, rowCount⟩ := held_of_text found rowsRead
    obtain ⟨items, count⟩ := take_demands_account demandsTaken
    refine Or.inr ⟨table, rows.skipped + taken.skipped, held', rfl, complete ▸ items, ?_⟩
    change taken.items.length + (rows.skipped + taken.skipped) = _
    omega
  · rename_i missing
    obtain ⟨chain, chained, result⟩ := bind_returned loaded
    cases result
    exact Or.inl ⟨missing, rfl, chained⟩

theorem load_makes {folder : Folder} {unseeded : MersenneTwister} {seed : Option Int}
    {data : Dataset α} (loaded : load folder unseeded seed = .ok data) :
    ∃ tables : DatasetTables, tables.HeldBy α folder ∧ data.MadeOf tables unseeded seed := by
  obtain ⟨nodesText, nodesFound, loaded⟩ := bind_returned loaded
  obtain ⟨nodes, nodesRead, loaded⟩ := bind_returned loaded
  obtain ⟨linksText, linksFound, loaded⟩ := bind_returned loaded
  obtain ⟨links, linksRead, loaded⟩ := bind_returned loaded
  obtain ⟨⟨topology, refused⟩, made, loaded⟩ := bind_returned loaded
  obtain ⟨servicesText, servicesFound, loaded⟩ := bind_returned loaded
  obtain ⟨services, servicesRead, loaded⟩ := bind_returned loaded
  obtain ⟨⟨demands, skipped⟩, demandsLoaded, result⟩ := bind_returned loaded
  cases result
  obtain ⟨nodeTable, nodesHeld, nodeRows, nodeCount⟩ := held_of_text nodesFound nodesRead
  obtain ⟨linkTable, linksHeld, linkRows, linkCount⟩ := held_of_text linksFound linksRead
  obtain ⟨serviceTable, servicesHeld, serviceItems, serviceCount⟩ :=
    read_services_account servicesFound servicesRead
  obtain ⟨ofRecords, tolerance⟩ := Topology.of_records made
  rw [nodeRows, linkRows] at ofRecords
  rw [nodeRows] at nodeCount
  rw [linkRows] at linkCount
  have records := ofRecords.count
  simp only [List.length_map] at records
  rcases load_demands_account demandsLoaded with
    ⟨missing, rfl, chained⟩ | ⟨demandTable, count, demandsHeld, rfl, demandItems, demandCount⟩
  · refine ⟨⟨nodeTable, linkTable, serviceTable, none⟩,
      ⟨nodesHeld, linksHeld, servicesHeld, nofun, fun _ => missing⟩,
      ⟨rfl, nodeCount, linkCount, records, serviceCount, nofun⟩, ofRecords, tolerance,
      serviceItems, nofun, fun _ => chained⟩
  · refine ⟨⟨nodeTable, linkTable, serviceTable, some demandTable⟩,
      ⟨nodesHeld, linksHeld, servicesHeld, ?_, nofun⟩,
      ⟨rfl, nodeCount, linkCount, records, serviceCount, ?_⟩, ofRecords, tolerance,
      serviceItems, ?_, nofun⟩
    · rintro table ⟨⟩
      exact demandsHeld
    · rintro table ⟨⟩
      exact demandCount
    · rintro table ⟨⟩
      exact demandItems

/-! ## What is kept -/

namespace MadeOf

variable {tables : DatasetTables} {unseeded : MersenneTwister} {seed : Option Int}
  {data : Dataset α}

theorem nodes_kept (made : data.MadeOf tables unseeded seed) :
    KeepsFirsts tables.nodes.rows tables.node? (fun n => lowerCase n.name)
      data.topology.nodes := by
  rw [made.topology.nodes, List.filterMap_map, RowLayout.complete, List.filterMap_filterMap]
  exact first_of_each_keeps_firsts _ _

theorem links_kept (made : data.MadeOf tables unseeded seed) :
    KeepsFirsts tables.links.rows (tables.link? data.topology) Link.id data.topology.links := by
  have listed := made.topology.links
  rw [List.filterMap_map, RowLayout.complete, List.filterMap_filterMap] at listed
  rw [listed]
  exact first_of_each_keeps_firsts _ _

theorem services_kept (made : data.MadeOf tables unseeded seed) :
    KeepsFirsts tables.services.rows tables.service? Service.name data.services := by
  rw [made.services, RowLayout.complete, List.filterMap_filterMap]
  exact first_of_each_keeps_firsts _ _

theorem demands_kept (made : data.MadeOf tables unseeded seed) {table : TextTable}
    (present : tables.demands = some table) :
    data.demands = table.rows.filterMap (table.demand? data.serviceNames) := by
  rw [made.demands table present, RowLayout.complete, List.filterMap_filterMap]
  rfl

end MadeOf
end Dataset
end EdgePlacement
