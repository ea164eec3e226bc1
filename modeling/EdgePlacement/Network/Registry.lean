import EdgePlacement.Network.RoutingGraph
import EdgePlacement.OrderedMap

/-!
# Registries

A registry is a topology while it is put together. Beside the nodes and links it keeps an index of
the names in lower case, the ids of the links, a multigraph of both, and the routing graph of the
last query, until something is added. Each addition writes to these one after the other: what has
been written when a fault comes stays written.
-/

namespace EdgePlacement

open EdgePlacement.Text

/-- An edge of a multigraph stands for the link of the same id. -/
structure Edge (α : Type) where
  id : String
  first : String
  second : String
  latency : α
  deriving DecidableEq

def Link.edge {α : Type} (l : Link α) : Edge α :=
  ⟨l.id, l.first, l.second, l.latency⟩

structure Multigraph (α : Type) where
  vertices : List String
  edges : List (Edge α)
  deriving DecidableEq

namespace Multigraph

variable {α : Type}

def empty : Multigraph α := ⟨[], []⟩

def addVertex (g : Multigraph α) (name : String) : Multigraph α :=
  if g.vertices.contains name then g else { g with vertices := g.vertices ++ [name] }

def isSame (e e' : Edge α) : Bool :=
  e.id == e'.id &&
    ((e.first == e'.first && e.second == e'.second) ||
      (e.first == e'.second && e.second == e'.first))

/-- An edge that is there already gets the new latency; ends that are no vertices become some. -/
def addEdge (g : Multigraph α) (e : Edge α) : Multigraph α :=
  let g := (g.addVertex e.first).addVertex e.second
  if g.edges.any (isSame e) then
    { g with edges := g.edges.map fun old =>
        if isSame e old then { old with latency := e.latency } else old }
  else { g with edges := g.edges ++ [e] }

end Multigraph

structure Registry (α : Type) where
  nodes : OrderedMap String (Node α)
  byLower : OrderedMap String String
  links : List (Link α)
  linkIds : List String
  graph : Multigraph α
  /-- The routing graph, if one has been built since the last addition. -/
  remembered : Option RoutingGraph
  tieTolerance : α
  deriving DecidableEq

/-- An action on a state. It may end with a fault, and leaves the state as far as it has come. -/
abbrev Action (σ α β : Type) := ExceptT (Fault α) (StateM σ) β

namespace Registry

variable {α : Type}

def empty (tieTolerance : α) : Registry α :=
  ⟨.empty, .empty, [], [], .empty, none, tieTolerance⟩

def topology (r : Registry α) : Topology α :=
  ⟨r.nodes.values, r.links, r.byLower.entries, r.tieTolerance⟩

def hasNode (r : Registry α) (name : String) : Bool :=
  (r.nodes.get? name).isSome

/-- The node of exactly this name, else the one of this name in other letter case. -/
def resolve? (r : Registry α) (name : String) : Option String :=
  if r.hasNode name then some name else r.byLower.get? (lowerCase name)

def withId (ids : List String) (id : String) : List String :=
  if ids.contains id then ids else ids ++ [id]

/-! ## Additions -/

def addNode (n : Node α) : Action (Registry α) α (Node α) := do
  let r ← get
  match r.byLower.get? (lowerCase n.name) with
  | some existing => throw (.duplicateNode n.name existing)
  | none =>
    modify fun r => { r with nodes := r.nodes.put n.name n }
    modify fun r => { r with byLower := r.byLower.put (lowerCase n.name) n.name }
    modify fun r => { r with graph := r.graph.addVertex n.name }
    modify fun r => { r with remembered := none }
    return n

/-- The link belongs to the caller, who sees what becomes of it: it takes the names of the nodes for
its ends, and then it is stored. -/
def addLink : Action (Registry α × Link α) α Unit := do
  let (r, l) ← get
  match r.resolve? l.first, r.resolve? l.second with
  | some first, some second =>
    if r.linkIds.contains l.id then throw (.duplicateLink l.id)
    else
      modify fun (r, l) => (r, { l with first, second })
      modify fun (r, l) => ({ r with links := r.links ++ [l] }, l)
      modify fun (r, l) => ({ r with linkIds := withId r.linkIds l.id }, l)
      modify fun (r, l) => ({ r with graph := r.graph.addEdge l.edge }, l)
      modify fun (r, l) => ({ r with remembered := none }, l)
  | first, second =>
    let missing :=
      (if first.isNone then [l.first] else []) ++ (if second.isNone then [l.second] else [])
    throw (.unknownEndpoints l.id missing)

/-! ## Records -/

/-- The link of a record is stored, and nobody else sees what becomes of it. -/
def storeLink (l : Link α) : Action (Registry α) α Unit := fun r =>
  let (result, r, _) := addLink (r, l)
  (result, r)

/-- Adds a record, or leaves it out when it is faulty and counts it. What it has written before its
fault stays written. -/
def takeRecord {ρ β : Type} (add : ρ → Action (Registry α) α β) (record : Except (Fault α) ρ) :
    Action (Registry α) α Nat :=
  tryCatch (do let _ ← add (← record); return 0) fun fault =>
    if Topology.passesOver fault then return 1 else throw fault

def takeRecords {ρ β : Type} (add : ρ → Action (Registry α) α β) :
    List (Except (Fault α) ρ) → Action (Registry α) α Nat
  | [] => return 0
  | record :: rest => do
    let leftOut ← takeRecord add record
    let later ← takeRecords add rest
    return leftOut + later

def takeAll (nodes : List (Except (Fault α) (Node α))) (links : List (Except (Fault α) (Link α))) :
    Action (Registry α) α Nat := do
  let skippedNodes ← takeRecords addNode nodes
  let skippedLinks ← takeRecords storeLink links
  return skippedNodes + skippedLinks

def ofRecords (tieTolerance : α) (nodes : List (Except (Fault α) (Node α)))
    (links : List (Except (Fault α) (Link α))) : Except (Fault α) (Registry α × Nat) :=
  match takeAll nodes links (empty tieTolerance) with
  | (.ok skipped, r) => .ok (r, skipped)
  | (.error fault, _) => .error fault

/-! ## Queries -/

variable [Quantity α]

def routingGraph : Action (Registry α) α RoutingGraph := do
  let r ← get
  match r.remembered with
  | some g => return g
  | none =>
    let g := r.topology.routing
    set { r with remembered := some g }
    return g

def shown : Action (Registry α) α (Topology α) := do
  let g ← routingGraph
  let r ← get
  return r.topology.seenBy g

def neighbours (name : String) : Action (Registry α) α (List String) := do
  let t ← shown
  t.neighbours name

def linkBetween (a b : String) : Action (Registry α) α (Option (Link α)) := do
  let t ← shown
  return t.preferredLink? a b

variable [PathChoice α]

/-- Whether the question makes sense is settled before the routing graph is asked for, and so is the
way from a node to itself. -/
def findPath (a b weight : String) : Action (Registry α) α (Option (List (Link α))) := do
  let r ← get
  if (PathWeight.ofName? weight).isNone then throw (.unknownPathWeight weight)
  else if !(r.hasNode a && r.hasNode b) then throw (.unknownPathEnds a b)
  else if a = b then return some []
  else
    let t ← shown
    t.findPath a b weight

/-! ## Calls -/

inductive Call (α : Type) where
  | addNode (n : Node α)
  | addLink (l : Link α)
  | neighbours (name : String)
  | linkBetween (a b : String)
  | findPath (a b weight : String)

def Call.after (r : Registry α) : Call α → Registry α
  | addNode n => (Registry.addNode n r).2
  | addLink l => (Registry.addLink (r, l)).2.1
  | neighbours name => (Registry.neighbours name r).2
  | linkBetween a b => (Registry.linkBetween a b r).2
  | findPath a b weight => (Registry.findPath a b weight r).2

def ofCalls (tieTolerance : α) (calls : List (Call α)) : Registry α :=
  calls.foldl Call.after (empty tieTolerance)

end Registry
end EdgePlacement
