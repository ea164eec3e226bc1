import EdgePlacement.Decimal.Numeral
import EdgePlacement.Quantity
import EdgePlacement.Table.Reading

/-!
# Rows of data

A row of data is a row of a table read by a layout: an identity, further texts and numbers. It is
complete when its identity is there and not empty and all its number cells hold numbers. Complete
rows are taken in their order; the others are counted.
-/

namespace EdgePlacement

open EdgePlacement.Decimal

structure RowLayout where
  identity : String
  texts : List String
  numbers : List String

def RowLayout.columns (layout : RowLayout) : List String :=
  layout.identity :: layout.texts ++ layout.numbers

structure DataRow (α : Type) where
  identity : String
  texts : List (Option String)
  numbers : List α
  deriving DecidableEq

structure Taken (β : Type) where
  items : List β
  skipped : Nat
  deriving DecidableEq

namespace Taken

variable {β : Type}

def empty : Taken β := ⟨[], 0⟩

def keep (item : β) (later : Taken β) : Taken β :=
  { later with items := item :: later.items }

def pass (later : Taken β) : Taken β :=
  { later with skipped := later.skipped + 1 }

def ofOption (item : Option β) (later : Taken β) : Taken β :=
  match item with
  | some item => later.keep item
  | none => later.pass

end Taken

/-- How a cell is read that stands in a column of numbers. The other cells of the column may have a
say in it. -/
class CellReading (α : Type) where
  read? : (column : List (Option String)) → (cell : Option String) → Option α

def TextTable.column (table : TextTable) (place : Nat) : List (Option String) :=
  table.rows.map fun row => row.getD place none

section Reading

variable {α : Type} [Quantity α] [CellReading α]

/-- What is read but differs from itself is no number either. -/
def readNumber? (column : List (Option String)) (cell : Option String) : Option α :=
  (CellReading.read? column cell).filter fun v => v == v

def DataRow.ofCells? (texts : List (Option String))
    (numbers : List (List (Option String) × Option String)) : Option (DataRow α) :=
  match texts with
  | some identity :: texts =>
    if identity.isEmpty then none
    else
      (numbers.mapM fun (column, cell) => readNumber? column cell).map fun numbers =>
        ⟨identity, texts, numbers⟩
  | _ => none

def TextTable.dataRows (table : TextTable) (textCount : Nat) : Taken (DataRow α) :=
  let columns := (List.range' textCount (table.columns.length - textCount)).map table.column
  let rows := table.rows.map fun row =>
    DataRow.ofCells? (row.take textCount) (columns.zip (row.drop textCount))
  rows.foldr Taken.ofOption Taken.empty

/-- A name of the layout may stand above two columns; of numbers, that is refused. -/
def readRows (fileName text : String) (layout : RowLayout) :
    Except (Fault α) (Taken (DataRow α)) := do
  let table ← readTable fileName text layout.columns
  if layout.numbers.any fun name => 1 < table.columns.count name then .error .repeatedNumberColumn
  else return table.dataRows (table.columns.length - layout.numbers.length)

end Reading

/-! ## Readings of numerals -/

/-- A column tells negative zero from zero unless all its cells are whole numbers. -/
def keepsZeroSign (column : List (Option String)) : Bool :=
  column.any fun cell => (cell.bind Numeral.readWord?).isNone

def readNumeral? {α : Type} [Denoted α] (column : List (Option String)) (cell : Option String) :
    Option α := do
  let text ← cell
  let numeral ← Numeral.readCell? text
  Denoted.ofNumeral? (if keepsZeroSign column then numeral else numeral.dropZeroSign)

instance : CellReading Float := ⟨readNumeral?⟩

instance : CellReading Rat := ⟨readNumeral?⟩

end EdgePlacement
