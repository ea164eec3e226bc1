import EdgePlacement.Link
import EdgePlacement.Node
import EdgePlacement.Text.LetterCase

/-!
# Topologies

Nodes joined by links, both in the order in which they were added. Names of nodes are distinct even
without regard to letter case, and a link may name its ends in any case: it is stored with the names
of the nodes. Links may be parallel, and may join a node to itself; their ids are distinct.
-/

namespace EdgePlacement

open EdgePlacement.Text

structure Topology (α : Type) where
  nodes : List (Node α)
  links : List (Link α)
  /-- The name of each node under its lower-case form. -/
  canonical : List (String × String)
  /-- How far two latency sums may be apart and still tie. -/
  tieTolerance : α
  deriving DecidableEq

namespace Topology

variable {α : Type}

def empty (tieTolerance : α) : Topology α :=
  ⟨[], [], [], tieTolerance⟩

def nodeNames (t : Topology α) : List String :=
  t.nodes.map (·.name)

def node? (t : Topology α) (name : String) : Option (Node α) :=
  t.nodes.find? fun n => n.name = name

def hasNode (t : Topology α) (name : String) : Bool :=
  t.nodeNames.contains name

def link? (t : Topology α) (id : String) : Option (Link α) :=
  t.links.find? fun l => l.id = id

def node (t : Topology α) (name : String) : Except (Fault α) (Node α) :=
  match t.node? name with
  | some n => .ok n
  | none => .error (.unknownNode name)

/-- The node that a name stands for: the one of exactly this name, else the one of this name in
other letter case. -/
def resolve? (t : Topology α) (name : String) : Option String :=
  if t.hasNode name then some name else t.canonical.lookup (lowerCase name)

def addNode (t : Topology α) (n : Node α) : Except (Fault α) (Topology α) :=
  match t.canonical.lookup (lowerCase n.name) with
  | some existing => .error (.duplicateNode n.name existing)
  | none =>
    .ok { t with
      nodes := t.nodes ++ [n]
      canonical := t.canonical ++ [(lowerCase n.name, n.name)] }

/-- The link as it is stored, with the names of the nodes it joins, and the topology with it. -/
def addLink (t : Topology α) (l : Link α) : Except (Fault α) (Link α × Topology α) :=
  match t.resolve? l.first, t.resolve? l.second with
  | some first, some second =>
    if (t.link? l.id).isSome then .error (.duplicateLink l.id)
    else
      let l := { l with first, second }
      .ok (l, { t with links := t.links ++ [l] })
  | first, second =>
    let missing :=
      (if first.isNone then [l.first] else []) ++ (if second.isNone then [l.second] else [])
    .error (.unknownEndpoints l.id missing)

def edges (t : Topology α) : List (Link α) :=
  t.links.foldl (fun edges l =>
    if edges.any fun e => e.id == l.id && e.joins l.first l.second then edges else edges ++ [l]) []

def updateNode (t : Topology α) (name : String) (f : Node α → Node α) : Topology α :=
  { t with nodes := t.nodes.map fun n => if n.name = name then f n else n }

def updateLink (t : Topology α) (id : String) (f : Link α → Link α) : Topology α :=
  { t with links := t.links.map fun l => if l.id = id then f l else l }

variable [Quantity α]

def usualTieTolerance : α := 1e-9

/-- No node hosts the service any more. -/
def undeployEverywhere (t : Topology α) (service : Service α) : Topology α :=
  { t with nodes := t.nodes.map fun n => n.undeploy service }

def resetUsage (t : Topology α) : Topology α :=
  { t with nodes := t.nodes.map Node.reset, links := t.links.map Link.reset }

/-- Whether a faulty record is left out when many are taken together; a number beyond all bounds is
not passed over. -/
def passesOver : Fault α → Bool
  | .numberTooLarge => false
  | _ => true

def takeRecords {ρ : Type} (add : Topology α → ρ → Except (Fault α) (Topology α)) :
    List (Except (Fault α) ρ) → Topology α → Except (Fault α) (Topology α × Nat)
  | [], t => .ok (t, 0)
  | record :: rest, t =>
    match record.bind (add t) with
    | .ok t => takeRecords add rest t
    | .error fault =>
      if passesOver fault then (takeRecords add rest t).map fun (t, skipped) => (t, skipped + 1)
      else .error fault

def ofRecords (tieTolerance : α) (nodes : List (Except (Fault α) (Node α)))
    (links : List (Except (Fault α) (Link α))) : Except (Fault α) (Topology α × Nat) := do
  let (t, skippedNodes) ← takeRecords addNode nodes (empty tieTolerance)
  let (t, skippedLinks) ← takeRecords (fun t l => (t.addLink l).map (·.2)) links t
  return (t, skippedNodes + skippedLinks)

end Topology
end EdgePlacement
