/-!
# Maps in the order of insertion

A key that is put again keeps its place and takes the new value.
-/

namespace EdgePlacement

structure OrderedMap (κ ν : Type) where
  entries : List (κ × ν)
  deriving DecidableEq

namespace OrderedMap

variable {κ ν : Type} [DecidableEq κ]

def empty : OrderedMap κ ν := ⟨[]⟩

def get? (m : OrderedMap κ ν) (key : κ) : Option ν :=
  (m.entries.find? fun entry => entry.1 = key).map (·.2)

def putEntry (key : κ) (value : ν) : List (κ × ν) → List (κ × ν)
  | [] => [(key, value)]
  | entry :: rest =>
    if entry.1 = key then (key, value) :: rest else entry :: putEntry key value rest

def put (m : OrderedMap κ ν) (key : κ) (value : ν) : OrderedMap κ ν :=
  ⟨putEntry key value m.entries⟩

def ofPairs (pairs : List (κ × ν)) : OrderedMap κ ν :=
  pairs.foldl (fun m (key, value) => m.put key value) empty

def keys (m : OrderedMap κ ν) : List κ :=
  m.entries.map (·.1)

def values (m : OrderedMap κ ν) : List ν :=
  m.entries.map (·.2)

end OrderedMap
end EdgePlacement
