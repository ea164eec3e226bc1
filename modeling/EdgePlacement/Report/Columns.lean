import EdgePlacement.Decimal.Fixed

/-!
# Columns of text

A printed table has its columns side by side, two blanks apart, each as wide as its longest cell.
Cells stand at the right edge of their column.
-/

namespace EdgePlacement

open EdgePlacement.Decimal

def escapeLayout (c : Char) : List Char :=
  if c = '\t' then ['\\', 't']
  else if c = '\n' then ['\\', 'n']
  else if c = '\r' then ['\\', 'r']
  else [c]

def cellText (text : String) : String :=
  String.ofList (text.toList.flatMap escapeLayout)

/-- A value rounded to tenths, a half to the even neighbour: ten times the value is rounded first to
binary64 and then to a whole number. -/
def tenthsText (value : Float) : String :=
  match Binary64.classify (value * 10) with
  | .finite ⟨negative, mantissa, exponent⟩ =>
    signText negative ++ String.ofList (placePoint 1 (unitsOfPlace 0 mantissa exponent))
  | .infinite negative => signText negative ++ plainLayout.infiniteWord
  | .undefined => "NaN"

def justify (column : List String) : List String :=
  let width := column.foldl (fun width cell => max width cell.length) 0
  column.map fun cell =>
    String.ofList (List.replicate (width - cell.length) ' ') ++ cell

def columnLines (columns : List (List String)) : List String :=
  let columns := columns.map justify
  let count := (columns.head?.map List.length).getD 0
  (List.range count).map fun i =>
    String.intercalate "  " (columns.map fun column => column.getD i "")

end EdgePlacement
