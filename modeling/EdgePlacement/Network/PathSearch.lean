/-!
# Least paths in a weighted graph

Among all simple paths between two vertices whose cost ties with the least one, the search finds the
path whose sequence of vertices comes first. It builds the path from its start: at each vertex it
takes the first arc beyond which the least cost of reaching the goal, on the vertices not used so
far, still ties. Costs are summed along the path from its start, so that a rounded sum is the sum
that a reader of the path would form. Where costs compare with nothing there is no least one, and
which simple path is taken is left open.
-/

namespace EdgePlacement

structure Arc (κ : Type) where
  source : String
  target : String
  cost : κ

/-- A graph whose arcs out of a vertex are listed in the order of their targets. -/
structure Graph (κ : Type) where
  vertices : List String
  arcs : List (Arc κ)

structure CostRule (κ : Type) where
  start : κ
  add : κ → κ → κ
  less : κ → κ → Bool
  tied : κ → κ → Bool

namespace Graph

variable {κ : Type}

def arcsFrom (g : Graph κ) (vertex : String) : List (Arc κ) :=
  g.arcs.filter fun arc => arc.source = vertex

def without (g : Graph κ) (vertex : String) : Graph κ where
  vertices := g.vertices.filter fun v => v ≠ vertex
  arcs := g.arcs.filter fun arc => arc.source ≠ vertex && arc.target ≠ vertex

def withoutEdge (g : Graph κ) (a b : String) : Graph κ :=
  { g with
    arcs := g.arcs.filter fun arc =>
      !((arc.source = a && arc.target = b) || (arc.source = b && arc.target = a)) }

def unweighted (g : Graph κ) : Graph Nat where
  vertices := g.vertices
  arcs := g.arcs.map fun arc => ⟨arc.source, arc.target, 1⟩

def hasArc (g : Graph κ) (a b : String) : Bool :=
  g.arcs.any fun arc => arc.source == a && arc.target == b

structure SimplePath (g : Graph κ) (source goal : String) where
  vertices : List String
  starts : vertices.head? = some source
  ends : vertices.getLast? = some goal
  joined : ∀ step ∈ vertices.zip vertices.tail, g.hasArc step.1 step.2 = true
  once : vertices.Nodup

def simplePath? (g : Graph κ) (source goal : String) (vertices : List String) :
    Option (g.SimplePath source goal) :=
  if starts : vertices.head? = some source then
    if ends : vertices.getLast? = some goal then
      if joined : ∀ step ∈ vertices.zip vertices.tail, g.hasArc step.1 step.2 = true then
        if once : vertices.Nodup then some ⟨vertices, starts, ends, joined, once⟩
        else none
      else none
    else none
  else none

end Graph

/-- What a search does in a graph with costs that compare with nothing: it answers with one of the
simple paths, or gives up. -/
class PathChoice (κ : Type) where
  choose? : (g : Graph κ) → (source goal : String) → Option (g.SimplePath source goal)

def PathChoice.vertices? {κ : Type} [PathChoice κ] (g : Graph κ) (source goal : String) :
    Option (List String) :=
  (choose? g source goal).map (·.vertices)

namespace CostRule

variable {κ : Type}

abbrev Labels (κ : Type) := List (String × κ)

/-- A vertex that was not reached before takes the cost; another one takes it when it is less. -/
def improve (rule : CostRule κ) (vertex : String) (cost : κ) : Labels κ → Labels κ
  | [] => [(vertex, cost)]
  | (reached, known) :: rest =>
    if reached = vertex then (reached, if rule.less cost known then cost else known) :: rest
    else (reached, known) :: rule.improve vertex cost rest

def relaxArc (rule : CostRule κ) (labels : Labels κ) (arc : Arc κ) : Labels κ :=
  match labels.lookup arc.source with
  | none => labels
  | some cost => rule.improve arc.target (rule.add cost arc.cost) labels

def relaxRounds (rule : CostRule κ) (g : Graph κ) : Nat → Labels κ → Labels κ
  | 0, labels => labels
  | rounds + 1, labels => rule.relaxRounds g rounds (g.arcs.foldl rule.relaxArc labels)

/-- The least cost of a walk that arrives at `source` with a given cost and goes on to the goal. As
many rounds as there are vertices reach every walk without a repeated vertex. -/
def leastCost? (rule : CostRule κ) (g : Graph κ) (source : String) (cost : κ) (goal : String) :
    Option κ :=
  (rule.relaxRounds g g.vertices.length [(source, cost)]).lookup goal

def leadsToTie (rule : CostRule κ) (g : Graph κ) (goal : String) (best : κ) (source : String)
    (cost : κ) : Bool :=
  match rule.leastCost? g source cost goal with
  | some least => rule.tied least best
  | none => false

/-- The first path from a vertex that has been reached with a given cost; the fuel is the count of
vertices left. -/
def firstTied? (rule : CostRule κ) (goal : String) (best : κ) :
    Nat → Graph κ → String → κ → Option (List String)
  | 0, _, _, _ => none
  | fuel + 1, g, here, cost =>
    if here = goal then some [here]
    else
      let rest := g.without here
      let next := (g.arcsFrom here).find? fun arc =>
        rule.leadsToTie rest goal best arc.target (rule.add cost arc.cost)
      match next with
      | none => none
      | some arc =>
        (rule.firstTied? goal best fuel rest arc.target (rule.add cost arc.cost)).map (here :: ·)

def reaches (rule : CostRule κ) (g : Graph κ) (source goal : String) : Bool :=
  (rule.leastCost? g source rule.start goal).isSome

/-- None when the goal is out of reach, and when no path ties even with the least cost. -/
def leastPath? (rule : CostRule κ) (g : Graph κ) (source goal : String) : Option (List String) :=
  match rule.leastCost? g source rule.start goal with
  | none => none
  | some best => rule.firstTied? goal best g.vertices.length g source rule.start

/-- Whether the goal can be reached otherwise than by the given path: some step of it can be done
without. -/
def hasOtherPath (rule : CostRule κ) (g : Graph κ) (source goal : String) (path : List String) :
    Bool :=
  (path.zip path.tail).any fun (a, b) => rule.reaches (g.withoutEdge a b) source goal

end CostRule

def hopRule : CostRule Nat where
  start := 0
  add := (· + ·)
  less a b := decide (a < b)
  tied a b := a == b

/-- The choices that the program runs with: one of the paths with the fewest hops. -/
def Graph.fewestHops? {κ : Type} (g : Graph κ) (source goal : String) :
    Option (g.SimplePath source goal) :=
  (hopRule.leastPath? g.unweighted source goal).bind (g.simplePath? source goal)

instance : PathChoice Float := ⟨Graph.fewestHops?⟩

instance : PathChoice Rat := ⟨Graph.fewestHops?⟩

end EdgePlacement
