import EdgePlacement.Dataset.Rows
import EdgePlacement.Link
import EdgePlacement.Node

/-!
# Records in tables

The tables of nodes, links, services and demands, and how a row of each becomes a record. Rows of
nodes and links are all handed on; of services and demands, those that make no valid record are
counted and left out.
-/

namespace EdgePlacement

open EdgePlacement.Decimal

def nodeLayout : RowLayout where
  identity := "node_id"
  texts := []
  numbers := ["storage", "compute", "uplink", "downlink"]

def linkLayout : RowLayout where
  identity := "link_id"
  texts := ["src", "dst"]
  numbers := ["capacity", "latency"]

def serviceLayout : RowLayout where
  identity := "service_id"
  texts := []
  numbers :=
    ["cpu_capacity_ghz", "memory_capacity_gb", "execution_cost", "vm_fixed_latency_ms"]

def demandLayout : RowLayout where
  identity := "service_a"
  texts := ["service_b"]
  numbers := ["bandwidth"]

/-- A missing name of an end of a link reads as this word, which may even name a node. -/
def missingName : String := "nan"

variable {α : Type} [Quantity α]

def Node.ofRow (row : DataRow α) : Except (Fault α) (Node α) :=
  match row.texts, row.numbers with
  | [], [storage, compute, uplink, downlink] =>
    Node.checked row.identity ⟨storage, compute, uplink, downlink⟩
  | _, _ => .error .wrongArity

def Link.ofRow (row : DataRow α) : Except (Fault α) (Link α) :=
  match row.texts, row.numbers with
  | [first, second], [capacity, latency] =>
    Link.checked row.identity (first.getD missingName) (second.getD missingName) capacity latency
  | _, _ => .error .wrongArity

/-- The memory of a service is its storage; links to the outside it has none. -/
def Service.ofRow (row : DataRow α) : Except (Fault α) (Service α) :=
  match row.texts, row.numbers with
  | [], [compute, memory, cost, latency] =>
    Service.checked ⟨row.identity, memory, compute, cost, latency, 0, 0⟩
  | _, _ => .error .repeatedTextColumn

/-- None for a demand that is to be left out. -/
def Demand.ofRow? (known : List String) (row : DataRow α) : Except (Fault α) (Option (Demand α)) :=
  match row.texts, row.numbers with
  | [some target], [bandwidth] =>
    if known.contains row.identity && known.contains target then
      .ok (Demand.checked ⟨row.identity, target, bandwidth⟩).toOption
    else .ok none
  | [none], [_] => .ok none
  | _, _ => .error .repeatedTextColumn

/-- The first valid row of a name counts; later rows of that name are left out. -/
def takeServices (taken : List String) : List (DataRow α) → Except (Fault α) (Taken (Service α))
  | [] => .ok Taken.empty
  | row :: rest =>
    match Service.ofRow row with
    | .ok service =>
      if taken.contains service.name then (takeServices taken rest).map Taken.pass
      else (takeServices (service.name :: taken) rest).map (Taken.keep service)
    | .error (.negativeRequirements _) => (takeServices taken rest).map Taken.pass
    | .error fault => .error fault

def takeDemands (known : List String) : List (DataRow α) → Except (Fault α) (Taken (Demand α))
  | [] => .ok Taken.empty
  | row :: rest => do
    let demand ← Demand.ofRow? known row
    return Taken.ofOption demand (← takeDemands known rest)

variable [CellReading α]

def readServices (fileName text : String) : Except (Fault α) (Taken (Service α)) := do
  let rows ← readRows fileName text serviceLayout
  let services ← takeServices [] rows.items
  return { services with skipped := rows.skipped + services.skipped }

def readDemands (fileName text : String) (known : List String) :
    Except (Fault α) (Taken (Demand α)) := do
  let rows ← readRows fileName text demandLayout
  let demands ← takeDemands known rows.items
  return { demands with skipped := rows.skipped + demands.skipped }

end EdgePlacement
