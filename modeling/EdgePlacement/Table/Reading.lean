import EdgePlacement.Table.Header

/-!
# Reading tables

A table has a header and rows of cells, each a text or missing. It is read with the columns that are
asked for, in the order in which they are asked for.
-/

namespace EdgePlacement

structure TextTable where
  columns : List String
  rows : List (List (Option String))
  deriving DecidableEq

namespace Table

open EdgePlacement.Text

def missingWords : List String := [
  "", "#N/A", "#N/A N/A", "#NA", "-1.#IND", "-1.#QNAN", "-NaN", "-nan", "1.#IND", "1.#QNAN", "<NA>",
  "N/A", "NA", "NULL", "NaN", "None", "n/a", "nan", "null"]

/-- Blanks are stripped only from a cell that is not missing; a cell of blanks is an empty text. -/
def cellOf (field : String) : Option String :=
  if missingWords.contains field then none else some (trim field)

/-- How many fields the first row of data has beyond the header; so many are dropped from the front
of every row. -/
def surplus (header : List String) (rows : List (List String)) : Nat :=
  (rows.head?.map fun first => first.length - header.length).getD 0

def isWide (header : List String) (rows : List (List String)) : Bool :=
  rows.tail.any fun row => header.length + surplus header rows < row.length

def cellsOf (width dropped : Nat) (row : List String) : List (Option String) :=
  let cells := (row.drop dropped).map cellOf
  cells ++ List.replicate (width - cells.length) none

def parse {α : Type} (text : String) : Except (Fault α) TextTable :=
  let text := text.toList.dropWhile (· = byteOrderMark)
  match scanRows? (separatorOf text) text with
  | none => .error .openQuote
  | some [] => .error .emptyTable
  | some (header :: rows) =>
    if isWide header rows then .error .wideRow
    else
      .ok {
        columns := (distinctNames header).map cleanName
        rows := rows.map (cellsOf header.length (surplus header rows)) }

end Table

namespace TextTable

/-- The places of the required columns; a name that occurs more than once gives all its places. -/
def places (table : TextTable) (required : List String) : List Nat :=
  required.flatMap fun name =>
    table.columns.zipIdx.filterMap fun (column, place) => if column = name then some place else none

def select (table : TextTable) (required : List String) : TextTable :=
  let places := table.places required
  { columns := places.map fun place => table.columns.getD place ""
    rows := table.rows.map fun row => places.map fun place => (row.getD place none) }

def dropEmptyRows (table : TextTable) : TextTable :=
  { table with rows := table.rows.filter fun row => row.any Option.isSome }

end TextTable

def readTable {α : Type} (fileName text : String) (required : List String) :
    Except (Fault α) TextTable := do
  let table ← Table.parse text
  let missing := required.filter fun name => !table.columns.contains name
  if missing.isEmpty then return (table.select required).dropEmptyRows
  else .error (.missingColumns fileName missing table.columns)

end EdgePlacement
