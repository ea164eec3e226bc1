import EdgePlacement.Fault

/-!
# Cutting a text into rows of fields

Fields are separated by one character and rows by line ends (a line feed, a carriage return, or
both). A field that starts with a quote runs to the closing quote; inside it a quote is written
twice, and separators and line ends stand for themselves; what follows the closing quote is
appended. A quote elsewhere is an ordinary character. Lines that are empty or hold only spaces and
tabs, the separator apart, make no row.
-/

namespace EdgePlacement.Table

def quoteMark : Char := '"'

def byteOrderMark : Char := '\uFEFF'

inductive ScanMode where
  | rowStart
  /-- Only blanks since the start of the row; they are kept as the start of a field. -/
  | blankLine
  | fieldStart
  | inField
  | inQuotes
  /-- A quote inside quotes: the closing one, or the first of two. -/
  | quoteSeen
  /-- A carriage return has ended a line; a line feed still belongs to it. -/
  | afterReturn
  deriving DecidableEq

/-- Rows, fields and characters so far, each with the latest in front. -/
structure ScanState where
  mode : ScanMode
  rows : List (List String)
  fields : List String
  field : List Char

namespace ScanState

def start : ScanState :=
  ⟨.rowStart, [], [], []⟩

def push (s : ScanState) (c : Char) (mode : ScanMode) : ScanState :=
  { s with mode, field := c :: s.field }

def endField (s : ScanState) : ScanState :=
  { s with mode := .fieldStart, fields := String.ofList s.field.reverse :: s.fields, field := [] }

def endRow (s : ScanState) (mode : ScanMode) : ScanState :=
  let s := s.endField
  ⟨mode, s.fields.reverse :: s.rows, [], []⟩

def readPlain (separator : Char) (s : ScanState) (c : Char) : ScanState :=
  if c = '\n' then s.endRow .rowStart
  else if c = '\r' then s.endRow .afterReturn
  else if c = separator then s.endField
  else s.push c .inField

def readFieldStart (separator : Char) (s : ScanState) (c : Char) : ScanState :=
  if c = quoteMark then { s with mode := .inQuotes } else s.readPlain separator c

def readRowStart (separator : Char) (s : ScanState) (c : Char) : ScanState :=
  if c = '\n' then { s with mode := .rowStart }
  else if c = '\r' then { s with mode := .afterReturn }
  else if (c = ' ' || c = '\t') && c ≠ separator then s.push c .blankLine
  else s.readFieldStart separator c

def readBlankLine (separator : Char) (s : ScanState) (c : Char) : ScanState :=
  if c = '\n' then { s with mode := .rowStart, field := [] }
  else if c = '\r' then { s with mode := .afterReturn, field := [] }
  else if (c = ' ' || c = '\t') && c ≠ separator then s.push c .blankLine
  else s.readPlain separator c

def read (separator : Char) (s : ScanState) (c : Char) : ScanState :=
  match s.mode with
  | .rowStart => s.readRowStart separator c
  | .blankLine => s.readBlankLine separator c
  | .fieldStart => s.readFieldStart separator c
  | .inField => s.readPlain separator c
  | .inQuotes => if c = quoteMark then { s with mode := .quoteSeen } else s.push c .inQuotes
  | .quoteSeen => if c = quoteMark then s.push c .inQuotes else s.readPlain separator c
  | .afterReturn =>
    if c = '\n' then { s with mode := .rowStart } else s.readRowStart separator c

def finish? (s : ScanState) : Option (List (List String)) :=
  match s.mode with
  | .rowStart | .blankLine | .afterReturn => some s.rows.reverse
  | .inQuotes => none
  | .fieldStart | .inField | .quoteSeen => some (s.endRow .rowStart).rows.reverse

end ScanState

def scanRows? (separator : Char) (text : List Char) : Option (List (List String)) :=
  (text.foldl (ScanState.read separator) ScanState.start).finish?

/-- A tab in the first line, be it blank, makes tabs the separators; else they are commas. -/
def separatorOf (text : List Char) : Char :=
  let firstLine := text.takeWhile fun c => c ≠ '\n' && c ≠ '\r'
  if firstLine.contains '\t' then '\t' else ','

end EdgePlacement.Table
