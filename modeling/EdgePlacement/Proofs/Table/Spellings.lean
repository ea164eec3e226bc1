import Mathlib.Data.List.FinRange
import EdgePlacement.Proofs.Table.SeparatedLines

/-!
# Spellings of one table

A table may be spelled with tabs or commas, with any line ends, with or without a byte-order mark
and with empty lines between its rows; its columns may come in any order and among others, under
names in any letter case, quoted and padded. Every spelling is read as the same table: the columns
asked for and, in their order, the rows that have any of their cells.
-/

namespace EdgePlacement.Table

open EdgePlacement.Text

set_option autoImplicit false

/-! ## Tables -/

structure Column (count : Nat) where
  name : String
  cell : Fin count → String

variable {count : Nat}

namespace Column

/-- What the column is asked for by. -/
def key (c : Column count) : String :=
  lowerCase (unmarked c.name)

def value (c : Column count) (i : Fin count) : Option String :=
  if missingWords.contains (c.cell i) then none else some (c.cell i)

end Column

/-- The columns can be told apart by their names, and all that they hold can be spelled as it is. -/
structure Tabular (columns : List (Column count)) : Prop where
  names : ∀ c ∈ columns, Plain (unmarked c.name)
  named : ∀ c ∈ columns, unmarked c.name ≠ ""
  distinct : (columns.map Column.key).Nodup
  cells : ∀ c ∈ columns, ∀ i, Plain (c.cell i)

theorem Tabular.key_nonempty {columns : List (Column count)} (tabular : Tabular columns) :
    ∀ key ∈ columns.map Column.key, key ≠ "" := by
  intro key listed
  obtain ⟨c, member, rfl⟩ := List.mem_map.mp listed
  exact lower_case_nonempty (tabular.named c member)

theorem Tabular.of_perm {columns written : List (Column count)} (tabular : Tabular columns)
    (order : written.Perm columns) : Tabular written where
  names c member := tabular.names c (order.mem_iff.mp member)
  named c member := tabular.named c (order.mem_iff.mp member)
  distinct := (order.map Column.key).nodup_iff.mpr tabular.distinct
  cells c member := tabular.cells c (order.mem_iff.mp member)

def cellNamed (columns : List (Column count)) (name : String) (i : Fin count) : Option String :=
  (columns.find? fun c => c.key = name).bind fun c => c.value i

/-- The table with the required columns, less the rows with nothing in them. -/
def tableOf (columns : List (Column count)) (required : List String) : TextTable where
  columns := required
  rows := ((List.finRange count).map fun i =>
    required.map fun name => cellNamed columns name i).filter fun row => row.any Option.isSome

/-! ## Spellings -/

inductive Separator where
  | tab
  | comma

def Separator.char : Separator → Char
  | tab => '\t'
  | comma => ','

theorem Separator.separates (separator : Separator) :
    IsSeparator separator.char := by
  cases separator
  · exact .inl rfl
  · exact .inr rfl

structure Spelling where
  separator : Separator
  lineEnd : LineEnd
  isMarked : Bool
  header : List WrittenName
  /-- How many empty lines stand before each row and, under the number of rows, at the end. -/
  emptyLines : Nat → Nat

namespace Spelling

def body (s : Spelling) (written : List (Column count)) : List (Option (List String)) :=
  (List.finRange count).flatMap (fun i : Fin count =>
    List.replicate (s.emptyLines i) none ++ [some (written.map fun c => c.cell i)]) ++
      List.replicate (s.emptyLines count) none

def headerLine (s : Spelling) : List Char :=
  List.intercalate [s.separator.char] (s.header.map WrittenName.chars)

def text (s : Spelling) (written : List (Column count)) : String :=
  String.ofList ((if s.isMarked then [byteOrderMark] else []) ++
    List.intercalate s.lineEnd.chars
      (s.headerLine :: (s.body written).map (lineOf s.separator.char)))

variable {s : Spelling} {written : List (Column count)}

theorem mem_body {cells : List String} (listed : some cells ∈ s.body written) :
    ∃ i, cells = written.map fun c => c.cell i := by
  rw [body, List.mem_append, List.mem_flatMap] at listed
  rcases listed with ⟨i, -, within⟩ | atEnd
  · rcases List.mem_append.mp within with before | row
    · cases List.eq_of_mem_replicate before
    · exact ⟨i, Option.some.inj (List.mem_singleton.mp row)⟩
  · cases List.eq_of_mem_replicate atEnd

theorem rows_of_body : (s.body written).filterMap (·.bind rowGiven) =
    (List.finRange count).filterMap fun i : Fin count =>
      rowGiven (written.map fun c => c.cell i) := by
  have none : ∀ lines, (List.replicate lines (none : Option (List String))).filterMap
      (·.bind rowGiven) = [] := by
    intro lines
    refine List.filterMap_eq_nil_iff.mpr fun row listed => ?_
    rw [List.eq_of_mem_replicate listed]
    rfl
  rw [body, List.filterMap_append, none, List.append_nil]
  induction List.finRange count with
  | nil => rfl
  | cons i rest ih =>
      rw [List.flatMap_cons, List.filterMap_append, List.filterMap_append, none, ih,
        List.nil_append, List.filterMap_cons, List.filterMap_cons, List.filterMap_nil,
        Option.bind_some]
      cases rowGiven (written.map fun c => c.cell i) <;> rfl

theorem names_of_header {header : List WrittenName}
    (names : ∀ c ∈ written, Plain (unmarked c.name))
    (writes : List.Forall₂ WrittenName.Writes header (written.map Column.name)) :
    List.Forall₂ NamesField (written.map Column.key) (header.map WrittenName.chars) := by
  induction written generalizing header with
  | nil =>
      cases writes
      exact .nil
  | cons c written ih =>
      cases writes with
      | cons first rest =>
          exact .cons (written_name_field first (names c List.mem_cons_self))
            (ih (fun d member => names d (List.mem_cons_of_mem c member)) rest)

theorem lines_of_body (s : Spelling) (tabular : Tabular written) (some : written ≠ [])
    {fields : List (List Char)} (names : List.Forall₂ NamesField (written.map Column.key) fields) :
    Lines (written.map Column.key) fields (s.body written) where
  names := names
  filled := mt List.map_eq_nil_iff.mp some
  named := tabular.key_nonempty
  distinct := tabular.distinct
  square cells member := by
    obtain ⟨i, rfl⟩ := mem_body member
    rw [List.length_map, List.length_map]
  plain cells member cell inRow := by
    obtain ⟨i, rfl⟩ := mem_body member
    obtain ⟨c, inTable, rfl⟩ := List.mem_map.mp inRow
    exact tabular.cells c inTable i

theorem parse_text {α : Type} (s : Spelling) (tabular : Tabular written) (some : written ≠ [])
    (writes : List.Forall₂ WrittenName.Writes s.header (written.map Column.name)) :
    parse (s.text written) = (.ok {
      columns := written.map Column.key
      rows := ((List.finRange count).filterMap fun i : Fin count =>
        rowGiven (written.map fun c => c.cell i)).map (List.map cellOf) } :
          Except (Fault α) TextTable) := by
  obtain ⟨kept, names, dropped⟩ := marks_dropped s.separator.char
    (names_of_header tabular.names writes) (mt List.map_eq_nil_iff.mp some) tabular.key_nonempty
  have spelled : (s.text written).toList.dropWhile (· = byteOrderMark) =
      List.intercalate s.lineEnd.chars (List.intercalate [s.separator.char] kept ::
        (s.body written).map (lineOf s.separator.char)) := by
    rw [text, String.toList_ofList]
    exact dropped s.isMarked s.lineEnd _
  rw [(s.lines_of_body tabular some names).parse s.separator.separates spelled, rows_of_body]

end Spelling

/-! ## Reading -/

theorem cell_at_key {columns : List (Column count)} (distinct : (columns.map Column.key).Nodup)
    {c : Column count} (member : c ∈ columns) (cell : Column count → Option String) :
    (columns.map cell).getD ((columns.map Column.key).idxOf c.key) none = cell c := by
  have inside := List.idxOf_lt_length_of_mem (List.mem_map_of_mem (f := Column.key) member)
  have sameKey := List.getElem_idxOf inside
  generalize (columns.map Column.key).idxOf c.key = place at inside sameKey
  rw [List.length_map] at inside
  rw [List.getElem_map] at sameKey
  rw [List.getD_eq_getElem _ _ (by rwa [List.length_map]), List.getElem_map]
  exact congrArg cell
    (List.inj_on_of_nodup_map distinct (List.getElem_mem inside) member sameKey)

/-- Rows that are not given make no difference where they would be dropped anyway. -/
theorem filter_given {ι β γ : Type} {given : ι → Option β} {f : β → γ} {g : ι → γ} {p : γ → Bool}
    (same : ∀ i row, given i = some row → f row = g i)
    (dropped : ∀ i, given i = none → p (g i) = false)
    (indices : List ι) : ((indices.filterMap given).map f).filter p = (indices.map g).filter p := by
  induction indices with
  | nil => rfl
  | cons i rest ih =>
      rw [List.map_cons, List.filter_cons]
      cases row : given i with
      | none => rw [List.filterMap_cons_none row, dropped i row, ih, if_neg Bool.false_ne_true]
      | some row' =>
          rw [List.filterMap_cons_some row, List.map_cons, List.filter_cons, same i row' row, ih]

variable {columns further written : List (Column count)} {required : List String}

theorem cell_named (distinct : (columns.map Column.key).Nodup) {c : Column count}
    (member : c ∈ columns) (i : Fin count) : cellNamed columns c.key i = c.value i := by
  rw [cellNamed, find_by_key Column.key distinct member, Option.bind_some]

theorem value_of_plain {c : Column count} {i : Fin count} (plain : Plain (c.cell i)) :
    cellOf (c.cell i) = c.value i := by
  rw [cellOf, Column.value, plain.trimmed]

/-- A row of the one column that is empty there has nothing under any name. -/
theorem nothing_given (within : ∀ c ∈ columns, c ∈ written) {i : Fin count}
    (none : rowGiven (written.map fun c => c.cell i) = none) :
    (required.map fun name => cellNamed columns name i).any Option.isSome = false := by
  have single : (written.map fun c => c.cell i) = [""] := by
    unfold rowGiven at none
    split_ifs at none with single
    exact single
  rw [List.any_eq_false]
  intro cell listed
  obtain ⟨name, -, rfl⟩ := List.mem_map.mp listed
  unfold cellNamed
  cases found : columns.find? fun c => c.key = name with
  | none => exact Bool.false_ne_true
  | some c =>
      have member := within c (List.mem_of_find?_eq_some found)
      have empty : c.cell i = "" :=
        List.mem_singleton.mp (single ▸ List.mem_map_of_mem (f := fun c => c.cell i) member)
      rw [Option.bind_some, Column.value, empty]
      decide

theorem cells_found {table : TextTable} (isTable : table.columns = written.map Column.key)
    (keys : (written.map Column.key).Nodup) (distinct : (columns.map Column.key).Nodup)
    (within : ∀ c ∈ columns, c ∈ written) (offered : ∀ name ∈ required, ∃ c ∈ columns, c.key = name)
    {i : Fin count} (plain : ∀ c ∈ columns, Plain (c.cell i)) {row : List String}
    (given : rowGiven (written.map fun c => c.cell i) = some row) :
    table.cellsUnder required (row.map cellOf) =
      required.map fun name => cellNamed columns name i := by
  have written : (written.map fun c => c.cell i) = row := eq_of_row_given given
  refine List.map_congr_left fun name asked => ?_
  obtain ⟨c, member, rfl⟩ := offered name asked
  rw [isTable, ← written, List.map_map, cell_at_key keys (within c member) _,
    cell_named distinct member, Function.comp, value_of_plain (plain c member)]

/-- Whatever spelling a table is written in, with its columns in whatever order and among whatever
others, the same columns are read from it. -/
theorem spellings_read_alike {α : Type} (s : Spelling) (fileName : String)
    (tabular : Tabular (columns ++ further))
    (offered : ∀ name ∈ required, ∃ c ∈ columns, c.key = name)
    (order : written.Perm (columns ++ further)) (some : written ≠ [])
    (writes : List.Forall₂ WrittenName.Writes s.header (written.map Column.name)) :
    readTable fileName (s.text written) required =
      (.ok (tableOf columns required) : Except (Fault α) TextTable) := by
  have asWritten : Tabular written := tabular.of_perm order
  have within : ∀ c ∈ columns, c ∈ written := fun c member =>
    order.mem_iff.mpr (List.mem_append_left further member)
  have distinct : (columns.map Column.key).Nodup := by
    have all := tabular.distinct
    rw [List.map_append] at all
    exact all.of_append_left
  have found : ∀ name ∈ required, name ∈ written.map Column.key := by
    intro name asked
    obtain ⟨c, member, rfl⟩ := offered name asked
    exact List.mem_map_of_mem (within c member)
  rw [read_table_of_parse (s.parse_text asWritten some writes) asWritten.distinct found, tableOf,
    List.map_map]
  congr 2
  refine filter_given (p := fun row => row.any Option.isSome)
    (g := fun i => required.map fun name => cellNamed columns name i) ?_ ?_ _
  · exact fun i row given => cells_found rfl asWritten.distinct distinct within offered
      (fun c member => asWritten.cells c (within c member) i) given
  · exact fun i none => nothing_given within none

def loads : List (Column 3) := [
  ⟨"user", ["u1", "", "u2"].get⟩,
  ⟨"load", ["", "NA", "3"].get⟩]

def remarks : Column 3 :=
  ⟨"note", ["a", "b", "c"].get⟩

def mixedSpelling : Spelling where
  separator := .tab
  lineEnd := .both
  isMarked := true
  header := [⟨"NOTE", false, 0, 0, 0, 0⟩, ⟨"uSER", true, 2, 0, 0, 3⟩, ⟨"Load", true, 0, 1, 1, 0⟩]
  emptyLines := fun row => row

theorem mixed_spelling_read :
    mixedSpelling.text (remarks :: loads) =
        "\uFEFFNOTE\t  \"uSER   \"\t\" Load\" \r\n" ++ "a\tu1\t\r\n\r\n" ++
          "b\t\tNA\r\n\r\n\r\n" ++ "c\tu2\t3\r\n\r\n\r\n" ∧
      (readTable "loads.csv" (mixedSpelling.text (remarks :: loads)) ["load", "user"] :
          Except (Fault Rat) TextTable) =
        .ok ⟨["load", "user"], [[none, some "u1"], [some "3", some "u2"]]⟩ := by
  refine ⟨by decide +kernel, ?_⟩
  have tabular : Tabular (loads ++ [remarks]) :=
    ⟨by decide +kernel, by decide +kernel, by decide +kernel, by decide +kernel⟩
  have writes : List.Forall₂ WrittenName.Writes mixedSpelling.header
      ((remarks :: loads).map Column.name) := by
    refine .cons ?_ (.cons ?_ (.cons ?_ .nil)) <;> unfold WrittenName.Writes <;> decide +kernel
  have order : ([remarks] ++ loads).Perm (loads ++ [remarks]) := List.perm_append_comm
  have read : (readTable "loads.csv" (mixedSpelling.text (remarks :: loads)) ["load", "user"] :
      Except (Fault Rat) TextTable) = .ok (tableOf loads ["load", "user"]) :=
    spellings_read_alike mixedSpelling "loads.csv" tabular (by decide +kernel) order
      (List.cons_ne_nil _ _) writes
  exact read.trans (congrArg Except.ok (by decide +kernel))

/-- Without its byte-order marks a name may be another's. Such marks are taken out of a name, which
is brought to lower case, before it is compared with what is asked for; and a table has a header. -/
theorem names_alike_but_for_marks :
    (∀ name ∈ ["a", "\uFEFFa", "A"], Plain name ∧ name ≠ "") ∧ (∀ cell ∈ ["1", "2"], Plain cell) ∧
      (["a", "\uFEFFa"].map lowerCase).Nodup ∧
      (readTable "table.csv" "a,\uFEFFa\n1,2\n" ["a"] : Except (Fault Rat) TextTable) =
        .ok ⟨["a", "a"], [[some "1", some "2"]]⟩ ∧
      (readTable "table.csv" "\uFEFFa,a\n2,1\n" ["a"] : Except (Fault Rat) TextTable) =
        .ok ⟨["a"], [[some "2"]]⟩ ∧
      (readTable "table.csv" "A\n1\n" ["A"] : Except (Fault Rat) TextTable) =
        .error (.missingColumns "table.csv" ["A"] ["a"]) ∧
      (readTable "table.csv" "" [] : Except (Fault Rat) TextTable) = .error .emptyTable := by
  refine ⟨by decide +kernel, by decide +kernel, by decide +kernel, ?_, ?_, ?_, ?_⟩ <;> rfl

end EdgePlacement.Table
