import EdgePlacement.Resources

/-!
# Sums of arrays

A sum from left to right is `Quantity.total`. The sums of arrays are not tied to that order, nor are
those that make up the entries of a matrix product, and where numbers are rounded another order may
give another sum. How they are formed is therefore a parameter, and what does not depend on it is
said of every `Summation`.
-/

namespace EdgePlacement

class Summation (α : Type) where
  total : List α → α
  /-- What rows of shares put on one column in one dimension: an entry of the product of the
  transposed rows and what each of them requires. -/
  load : List (List α) → List (Resources α) → Nat → Dimension → α

namespace Summation

variable {α : Type} [Quantity α]

def loadTerms (rows : List (List α)) (needs : List (Resources α)) (column : Nat) (d : Dimension) :
    List (α × α) :=
  (rows.zip needs).map fun (row, need) => (row.getD column 0, need.get d)

def loadInOrder (rows : List (List α)) (needs : List (Resources α)) (column : Nat)
    (d : Dimension) : α :=
  Quantity.total ((loadTerms rows needs column d).map fun (share, need) => share * need)

/-! ## Pairwise sums -/

def lane (values : List α) (place : Nat) : α :=
  Quantity.total ((List.range (values.length / 8)).map fun group =>
    values.getD (8 * group + place) 0)

/-- Eight lanes are summed side by side and then joined in pairs; what is left over comes last. -/
def lanesTotal (values : List α) : α :=
  let joined := ((lane values 0 + lane values 1) + (lane values 2 + lane values 3)) +
    ((lane values 4 + lane values 5) + (lane values 6 + lane values 7))
  (values.drop (8 * (values.length / 8))).foldl (· + ·) joined

/-- Long lists are halved first, at a multiple of eight. -/
def halvedTotal : Nat → List α → α
  | 0, values => Quantity.total values
  | fuel + 1, values =>
    if values.length < 8 then Quantity.total values
    else if values.length ≤ 128 then lanesTotal values
    else
      let half := 8 * (values.length / 2 / 8)
      halvedTotal fuel (values.take half) + halvedTotal fuel (values.drop half)

def pairwiseTotal (values : List α) : α :=
  halvedTotal values.length values

end Summation

instance : Summation Rat where
  total := Quantity.total
  load := Summation.loadInOrder

theorem Summation.total_exact (values : List Rat) :
    Summation.total values = Quantity.total values := rfl

theorem Summation.load_exact (rows : List (List Rat)) (needs : List (Resources Rat))
    (column : Nat) (d : Dimension) :
    Summation.load rows needs column d =
      Quantity.total ((rows.zip needs).map fun (row, need) => row.getD column 0 * need.get d) :=
  congrArg Quantity.total List.map_map

/-- The orders that the program runs with. -/
instance : Summation Float where
  total := Summation.pairwiseTotal
  load := Summation.loadInOrder

end EdgePlacement
