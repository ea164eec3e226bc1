import EdgePlacement.Network.Paths

/-!
# Reserving bandwidth along paths

Bandwidth is reserved on every link of a path or on none of them: when a link refuses, the links
taken before it are released again, first taken first.
-/

namespace EdgePlacement.Topology

variable {α : Type} [Quantity α]

def releaseLinks (t : Topology α) (ids : List String) (bandwidth : α) : Topology α :=
  ids.foldl (fun t id => t.updateLink id (·.release bandwidth)) t

/-- Goes on with the links that are left, given those already taken. An id may occur more than once,
and is then reserved as often. -/
def reserveRest (bandwidth : α) : List String → List String → Topology α → Topology α × Bool
  | _, [], t => (t, true)
  | taken, id :: rest, t =>
    match (t.link? id).bind (·.reserve? bandwidth) with
    | some reserved =>
      reserveRest bandwidth (taken ++ [id]) rest (t.updateLink id fun _ => reserved)
    | none => (t.releaseLinks taken bandwidth, false)

/-- The topology afterwards, and whether the bandwidth is now reserved. -/
def reserveLinks (t : Topology α) (ids : List String) (bandwidth : α) : Topology α × Bool :=
  reserveRest bandwidth [] ids t

def reservePath (t : Topology α) (path : List (Link α)) (bandwidth : α) : Topology α × Bool :=
  t.reserveLinks (path.map (·.id)) bandwidth

end EdgePlacement.Topology
