import Mathlib.Data.List.GetD
import Mathlib.Data.List.Nodup
import Mathlib.Tactic.SplitIfs
import EdgePlacement.Proofs.OrderedMap
import EdgePlacement.Table.Reading

/-!
# Columns found by their names

The names of a header that are distinct and not empty are left as they are; and where the cleaned
names are distinct, a column that is asked for is the one of its name, so that the rows hold the
cells of the columns asked for, in their order.
-/

namespace EdgePlacement

set_option autoImplicit false

namespace Table

/-! ## The header -/

theorem give_new_names {header : List String} {places : List Nat} {r : Renaming}
    (distinct : (places.map (header.getD · "")).Nodup)
    (new : ∀ place ∈ places, header.getD place "" ∉ r.counts.keys) :
    (places.foldl (fun r place => r.give place (header.getD place "")) r).names = r.names := by
  induction places generalizing r with
  | nil => rfl
  | cons place rest ih =>
      rw [List.map_cons, List.nodup_cons] at distinct
      have first := new place List.mem_cons_self
      have given : r.give place (header.getD place "") =
          { r with counts := r.counts.put (header.getD place "") 1 } := by
        have unseen : r.count (header.getD place "") = 0 := by
          rw [Renaming.count, OrderedMap.get_eq_none_iff.mpr first]
          rfl
        unfold Renaming.give
        exact if_pos unseen
      rw [List.foldl_cons, given]
      refine ih distinct.2 fun later member => ?_
      rw [OrderedMap.put_new first]
      simp only [OrderedMap.keys, List.map_append, List.map_cons, List.map_nil, List.mem_append,
        List.mem_singleton, not_or]
      refine ⟨new later (List.mem_cons_of_mem place member), fun same => distinct.1 ?_⟩
      exact same ▸ List.mem_map_of_mem member

theorem distinct_names_eq (header : List String) : distinctNames header =
    let named := header.zipIdx.map fun entry =>
      if entry.1.isEmpty then placeholder entry.2 else entry.1
    let parts := header.zipIdx.partition fun entry => !entry.1.isEmpty
    let start : Renaming := ⟨named, OrderedMap.empty⟩
    (((parts.1 ++ parts.2).map (·.2)).foldl
      (fun r place => r.give place (named.getD place "")) start).names :=
  rfl

theorem distinct_names_kept {header : List String} (distinct : header.Nodup)
    (named : ∀ name ∈ header, name.isEmpty = false) : distinctNames header = header := by
  have places : header.zipIdx.map (·.2) = List.range header.length := by
    rw [List.zipIdx_map_snd, List.range_eq_range']
  have all : (List.range header.length).map (header.getD · "") = header := by
    refine List.ext_getElem (by simp) fun i inside inside' => ?_
    rw [List.getElem_map, List.getElem_range, List.getD_eq_getElem _ _ inside']
  have kept : (header.zipIdx.map fun entry =>
      if entry.1.isEmpty then placeholder entry.2 else entry.1) = header := by
    have same : ∀ entry ∈ header.zipIdx,
        (if entry.1.isEmpty then placeholder entry.2 else entry.1) = entry.1 := by
      intro entry member
      rw [named entry.1 (List.fst_mem_of_mem_zipIdx member)]
      rfl
    rw [List.map_congr_left same, List.zipIdx_map_fst]
  have parts : header.zipIdx.partition (fun entry => !entry.1.isEmpty) = (header.zipIdx, []) := by
    rw [List.partition_eq_filter_filter]
    congr 1
    · refine List.filter_eq_self.mpr fun entry member => ?_
      rw [named entry.1 (List.fst_mem_of_mem_zipIdx member)]
      rfl
    · refine List.filter_eq_nil_iff.mpr fun entry member => ?_
      rw [Function.comp, named entry.1 (List.fst_mem_of_mem_zipIdx member)]
      decide
  rw [distinct_names_eq]
  simp only [kept, parts, List.append_nil, places]
  refine give_new_names (all.symm ▸ distinct) fun place _ => ?_
  exact List.not_mem_nil

/-! ## The whole table -/

/-- Where every row is as wide as the header, a table has the cells of its rows and no others. -/
theorem parse_of_scan {α : Type} {text : String} {header : List String} {rows : List (List String)}
    (scanned : scanRows? (separatorOf (text.toList.dropWhile (· = byteOrderMark)))
      (text.toList.dropWhile (· = byteOrderMark)) = some (header :: rows))
    (square : ∀ row ∈ rows, row.length = header.length) :
    parse text = (.ok {
      columns := (distinctNames header).map cleanName
      rows := rows.map (List.map cellOf) } : Except (Fault α) TextTable) := by
  have noSurplus : surplus header rows = 0 := by
    cases rows with
    | nil => rfl
    | cons first rest =>
        have width := square first List.mem_cons_self
        change first.length - header.length = 0
        omega
  have notWide : isWide header rows = false := by
    refine List.any_eq_false.mpr fun row member => ?_
    have width := square row (List.mem_of_mem_tail member)
    rw [noSurplus, width]
    simp
  have cells : ∀ row ∈ rows, cellsOf header.length 0 row = row.map cellOf := by
    intro row member
    unfold cellsOf
    dsimp only
    rw [List.drop_zero, List.length_map, square row member, Nat.sub_self, List.replicate_zero,
      List.append_nil]
  unfold parse
  simp only [scanned, notWide, Bool.false_eq_true, if_false, noSurplus]
  rw [List.map_congr_left cells]

end Table

namespace TextTable

variable {table : TextTable}

theorem places_of_name {columns : List String} (distinct : columns.Nodup) {name : String}
    (listed : name ∈ columns) (start : Nat) :
    ((columns.zipIdx start).filterMap fun (column, place) =>
      if column = name then some place else none) = [start + columns.idxOf name] := by
  induction columns generalizing start with
  | nil => cases listed
  | cons column rest ih =>
      rw [List.nodup_cons] at distinct
      rw [List.zipIdx_cons, List.filterMap_cons]
      by_cases same : column = name
      · subst same
        have others : ((rest.zipIdx (start + 1)).filterMap fun (other, place) =>
            if other = column then some place else none) = [] := by
          refine List.filterMap_eq_nil_iff.mpr fun ⟨other, place⟩ member => if_neg ?_
          rintro rfl
          exact distinct.1 (List.fst_mem_of_mem_zipIdx member)
        simp only [if_true, others, List.idxOf_cons_self, Nat.add_zero]
      · have later := (List.mem_cons.mp listed).resolve_left (Ne.symm same)
        simp only [if_neg same, ih distinct.2 later, List.idxOf_cons_ne rest same]
        rw [Nat.add_right_comm, Nat.add_assoc]

theorem places_of_names (distinct : table.columns.Nodup) {required : List String}
    (offered : ∀ name ∈ required, name ∈ table.columns) :
    table.places required = required.map table.columns.idxOf := by
  unfold places
  rw [List.map_eq_flatMap]
  refine List.flatMap_congr fun name member => ?_
  rw [places_of_name distinct (offered name member), Nat.zero_add]

def cellsUnder (table : TextTable) (required : List String) (row : List (Option String)) :
    List (Option String) :=
  required.map fun name => row.getD (table.columns.idxOf name) none

theorem select_by_names (distinct : table.columns.Nodup) {required : List String}
    (offered : ∀ name ∈ required, name ∈ table.columns) :
    table.select required = ⟨required, table.rows.map (table.cellsUnder required)⟩ := by
  unfold select
  dsimp only
  rw [places_of_names distinct offered]
  congr 1
  · rw [List.map_map]
    refine (List.map_congr_left fun name member => ?_).trans (List.map_id required)
    have inside := List.idxOf_lt_length_of_mem (offered name member)
    rw [Function.comp, List.getD_eq_getElem _ _ inside, List.getElem_idxOf inside]
    rfl
  · refine List.map_congr_left fun row _ => ?_
    rw [List.map_map]
    rfl

end TextTable

theorem read_table_of_parse {α : Type} {fileName text : String} {required : List String}
    {table : TextTable} (parsed : Table.parse text = (.ok table : Except (Fault α) TextTable))
    (distinct : table.columns.Nodup) (offered : ∀ name ∈ required, name ∈ table.columns) :
    readTable fileName text required = (.ok {
      columns := required
      rows := (table.rows.map (table.cellsUnder required)).filter fun row =>
        row.any Option.isSome } : Except (Fault α) TextTable) := by
  have none : (required.filter fun name => !table.columns.contains name) = [] := by
    refine List.filter_eq_nil_iff.mpr fun name member => ?_
    rw [List.contains_iff_mem.mpr (offered name member)]
    decide
  unfold readTable
  rw [parsed]
  change (if (required.filter fun name => !table.columns.contains name).isEmpty then _ else _) = _
  rw [none, TextTable.select_by_names distinct offered]
  rfl

end EdgePlacement
