import EdgePlacement.Decimal.Shortest
import EdgePlacement.Table.Scan

/-!
# Writing tables

A field is quoted only if it holds the separator, a quote or a line end; a quote inside it is
written twice. Every row ends with a line feed.
-/

namespace EdgePlacement

inductive Cell (α : Type := Float) where
  | absent
  | text (value : String)
  | flag (value : Bool)
  | count (value : Nat)
  | quantity (value : α)

structure Frame (α : Type := Float) where
  columns : List String
  rows : List (List (Cell α))

namespace Table

def doubleQuotes (field : List Char) : List Char :=
  field.flatMap fun c => if c = quoteMark then [c, c] else [c]

def needsQuotes (separator : Char) (field : List Char) : Bool :=
  field.any fun c => c = separator || c = quoteMark || c = '\n' || c = '\r'

def writeField (separator : Char) (field : String) : List Char :=
  if needsQuotes separator field.toList then
    [quoteMark] ++ doubleQuotes field.toList ++ [quoteMark]
  else field.toList

def writeRow (separator : Char) (fields : List String) : List Char :=
  ((fields.map (writeField separator)).intersperse [separator]).flatten ++ ['\n']

def writeRows (separator : Char) (rows : List (List String)) : String :=
  String.ofList (rows.flatMap (writeRow separator))

end Table

/-- An undefined quantity is left out like an absent value. -/
def Cell.exported : Cell → String
  | absent => ""
  | text value => value
  | flag true => "True"
  | flag false => "False"
  | count value => Decimal.countText value
  | quantity value => if value == value then Decimal.numberText value else ""

def Frame.exported (frame : Frame) : String :=
  Table.writeRows ',' (frame.columns :: frame.rows.map fun row => row.map Cell.exported)

end EdgePlacement
