import EdgePlacement.Decimal.Whole
import EdgePlacement.OrderedMap
import EdgePlacement.Table.Scan
import EdgePlacement.Text.Blank
import EdgePlacement.Text.LetterCase

/-!
# Column names

Empty names are numbered by their place and repeated ones by how often the name has occurred, so
that the names of a header are distinct; then marks, quotes, blanks at the ends and letter case are
taken off, after which two of them may be equal again.
-/

namespace EdgePlacement.Table

open EdgePlacement.Decimal EdgePlacement.Text

def placeholder (place : Nat) : String :=
  "Unnamed: " ++ countText place

structure Renaming where
  names : List String
  counts : OrderedMap String Nat

namespace Renaming

def count (r : Renaming) (name : String) : Nat :=
  (r.counts.get? name).getD 0

def numbered (name : String) (number : Nat) : String :=
  name ++ "." ++ countText number

def freeNumber (r : Renaming) (name : String) : Nat → Nat → Nat
  | 0, number => number
  | fuel + 1, number =>
    if r.names.contains (numbered name number) then r.freeNumber name fuel (number + 1)
    else number

def give (r : Renaming) (place : Nat) (name : String) : Renaming :=
  let seen := r.count name
  if seen = 0 then { r with counts := r.counts.put name 1 }
  else
    let number := r.freeNumber name r.names.length seen
    let chosen := numbered name number
    { names := r.names.set place chosen
      counts := (r.counts.put name (number + 1)).put chosen 1 }

end Renaming

/-- Given names are kept before placeholders are. -/
def distinctNames (header : List String) : List String :=
  let named := header.zipIdx.map fun (name, place) =>
    if name.isEmpty then placeholder place else name
  let (given, empty) := header.zipIdx.partition fun (name, _) => !name.isEmpty
  let order := (given ++ empty).map (·.2)
  let start : Renaming := ⟨named, OrderedMap.empty⟩
  (order.foldl (fun r place => r.give place (named.getD place "")) start).names

def cleanName (name : String) : String :=
  lowerCase (trim (String.ofList (name.toList.filter fun c => c ≠ byteOrderMark && c ≠ quoteMark)))

end EdgePlacement.Table
