import EdgePlacement.Node
import EdgePlacement.Placement.Sampler
import EdgePlacement.Summation
import EdgePlacement.Text.NameOrder

/-!
# The order in which nodes are tried

For one service: a node sampled by the weights, then the other nodes of positive weight, greatest
first, then all the rest, greatest capacity first. Where the weights have no mass, all nodes by
their load, least loaded first. Names settle what is left open.
-/

namespace EdgePlacement

open EdgePlacement.Text

variable {α : Type} [Quantity α]

namespace Node

def loadPrecedes (a b : Node α) : Bool :=
  Quantity.precedesOr a.load b.load (namePrecedes a.name b.name)

/-- The greater capacity comes first, the dimensions taken in their order. -/
def capacityPrecedes (a b : Node α) : Bool :=
  Dimension.all.foldr (fun d next => Quantity.precedesOr (b.capacity.get d) (a.capacity.get d) next)
    (namePrecedes a.name b.name)

def byLoad (nodes : List (Node α)) : List (Node α) :=
  nodes.mergeSort fun a b => !loadPrecedes b a

def byCapacity (nodes : List (Node α)) : List (Node α) :=
  nodes.mergeSort fun a b => !capacityPrecedes b a

end Node

structure Weighted (α : Type) where
  weight : α
  node : Node α

namespace Weighted

def precedes (a b : Weighted α) : Bool :=
  Quantity.precedesOr b.weight a.weight (namePrecedes a.node.name b.node.name)

/-- The nodes of positive weight but for the sampled one, greatest weight first. -/
def others (weights : List α) (nodes : List (Node α)) (sampled : Nat) : List (Node α) :=
  let weighted := (weights.zip nodes).zipIdx.filterMap fun ((weight, node), j) =>
    if j ≠ sampled && decide (0 < weight) then some (⟨weight, node⟩ : Weighted α) else none
  (weighted.mergeSort fun a b => !b.precedes a).map (·.node)

end Weighted

/-- The first choices, then every node not among them by capacity. -/
def completeOrder (first nodes : List (Node α)) : List (Node α) :=
  let seen := first.map (·.name)
  first ++ (Node.byCapacity nodes).filter fun n => !seen.contains n.name

def candidateOrder {σ δ : Type} [Summation α] (sampler : Sampler α σ δ) (weights : List α)
    (nodes : List (Node α)) (tolerance : α) (g : σ) : Except (Fault α) (List (Node α)) × σ :=
  let weights := weights.map Quantity.liftToZero
  let mass := Summation.total weights
  if mass ≤ tolerance then (.ok (completeOrder (Node.byLoad nodes) nodes), g)
  else
    let shares := weights.map (· / mass)
    if sampler.admits nodes.length shares then
      let (drawn, g) := sampler.draw g
      let sampled := sampler.pick shares drawn
      let first := nodes[sampled]?.toList ++ Weighted.others weights nodes sampled
      (.ok (completeOrder first nodes), g)
    else (.error .refusedWeights, g)

end EdgePlacement
