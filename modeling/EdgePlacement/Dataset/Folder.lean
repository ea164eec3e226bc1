import EdgePlacement.Dataset.Chain
import EdgePlacement.Dataset.Records
import EdgePlacement.Network.Topology

/-!
# Datasets in folders

A dataset is a folder with a table of nodes, one of links and one of services, and maybe one of
demands; without the last the services are taken for a chain. Records that cannot be used are left
out and counted for each table, and those that do not fit into the topology under a heading of their
own.
-/

namespace EdgePlacement

open EdgePlacement.Decimal EdgePlacement.Random

abbrev Folder := OrderedMap String String

namespace Folder

def nodes : String := "bs_nodes.csv"

def links : String := "links.csv"

def services : String := "services.csv"

def demands : String := "demands.csv"

def members : List String := [nodes, links, services, demands]

def text {α : Type} (folder : Folder) (name : String) : Except (Fault α) String :=
  match folder.get? name with
  | some text => .ok text
  | none => .error .missingTable

end Folder

/-- The heading for records that the topology refused. -/
def topologyHeading : String := "topology"

structure Dataset (α : Type) where
  topology : Topology α
  services : List (Service α)
  demands : List (Demand α)
  skippedByTable : OrderedMap String Nat

namespace Dataset

variable {α : Type}

def skipped (data : Dataset α) : Nat :=
  data.skippedByTable.values.foldl (· + ·) 0

variable [Quantity α] [Denoted α] [CellReading α]

def loadDemands (folder : Folder) (known : List String) (unseeded : MersenneTwister)
    (seed : Option Int) : Except (Fault α) (List (Demand α) × List (String × Nat)) :=
  match folder.get? Folder.demands with
  | some text => do
    let demands ← readDemands Folder.demands text known
    return (demands.items, [(Folder.demands, demands.skipped)])
  | none => do
    let demands ← chainDemands known chainBandwidths unseeded seed
    return (demands, [])

def load (folder : Folder) (unseeded : MersenneTwister) (seed : Option Int) :
    Except (Fault α) (Dataset α) := do
  let nodes ← readRows Folder.nodes (← folder.text Folder.nodes) nodeLayout
  let links ← readRows Folder.links (← folder.text Folder.links) linkLayout
  let (topology, refused) ←
    Topology.ofRecords Topology.usualTieTolerance (nodes.items.map Node.ofRow)
      (links.items.map Link.ofRow)
  let services ← readServices Folder.services (← folder.text Folder.services)
  let (demands, skippedDemands) ← loadDemands folder (services.items.map (·.name)) unseeded seed
  return {
    topology := topology
    services := services.items
    demands := demands
    skippedByTable := ⟨[
      (Folder.nodes, nodes.skipped),
      (Folder.links, links.skipped),
      (topologyHeading, refused),
      (Folder.services, services.skipped)] ++ skippedDemands⟩ }

end Dataset
end EdgePlacement
