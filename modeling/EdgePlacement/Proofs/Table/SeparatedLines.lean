import EdgePlacement.Proofs.Table.Columns
import EdgePlacement.Proofs.Table.WrittenNames

/-!
# Lines of separated fields

The separator is found from the first line alone: it is a tab if that line has two fields or more
and tabs between them. A line gives the texts of its fields, unless it is empty, as that of a single
empty cell is.
-/

namespace EdgePlacement.Table

open EdgePlacement.Text ScanState

set_option autoImplicit false

variable {separator : Char}

/-! ## Separators -/

theorem mem_intercalate {fields : List (List Char)} {c : Char} :
    c ∈ List.intercalate [separator] fields ↔
      (c = separator ∧ 1 < fields.length) ∨ ∃ field ∈ fields, c ∈ field := by
  induction fields with
  | nil => simp
  | cons field rest ih =>
      cases rest with
      | nil => simp
      | cons next rest =>
          rw [List.intercalate_cons_cons, List.mem_append, List.mem_append, List.mem_singleton, ih]
          simp only [List.length_cons, List.mem_cons, exists_eq_or_imp]
          constructor
          · rintro ((within | rfl) | ⟨rfl, -⟩ | later)
            · exact .inr (.inl within)
            · exact .inl ⟨rfl, by omega⟩
            · exact .inl ⟨rfl, by omega⟩
            · exact .inr (.inr later)
          · rintro (⟨rfl, -⟩ | within | later)
            · exact .inl (.inr rfl)
            · exact .inl (.inl within)
            · exact .inr (.inr later)

theorem intercalate_cons_eq (separator first : List Char) (lines : List (List Char)) :
    List.intercalate separator (first :: lines) =
      first ++ lines.flatMap (fun line => separator ++ line) := by
  induction lines generalizing first with
  | nil => simp
  | cons next lines ih =>
      rw [List.intercalate_cons_cons, ih, List.flatMap_cons, List.append_assoc, List.append_assoc]

theorem separator_of_fields (separates : IsSeparator separator)
    {fields : List (List Char)} (free : ∀ field ∈ fields, ∀ c ∈ field, c ∉ breaks)
    (lineEnd : LineEnd) (lines : List (List Char)) :
    separatorOf (List.intercalate lineEnd.chars (List.intercalate [separator] fields :: lines)) =
      if separator = '\t' ∧ 1 < fields.length then '\t' else ',' := by
  have inLine : ∀ c ∈ List.intercalate [separator] fields, (c ≠ '\n' && c ≠ '\r') = true := by
    intro c member
    rcases mem_intercalate.mp member with ⟨rfl, -⟩ | ⟨field, listed, within⟩
    · rcases separates with rfl | rfl <;> decide
    · have other := free field listed c within
      simp only [breaks, List.mem_cons, not_or] at other
      simp [other.2.2.1, other.2.2.2.1]
  have ended : (lines.flatMap (fun line => lineEnd.chars ++ line)).takeWhile
      (fun c => c ≠ '\n' && c ≠ '\r') = [] := by
    cases lines with
    | nil => rfl
    | cons line lines => cases lineEnd <;> rfl
  have tabbed : '\t' ∈ List.intercalate [separator] fields ↔
      separator = '\t' ∧ 1 < fields.length := by
    rw [mem_intercalate]
    constructor
    · rintro (⟨same, many⟩ | ⟨field, listed, within⟩)
      · exact ⟨same.symm, many⟩
      · exact absurd (by decide) (free field listed _ within)
    · rintro ⟨same, many⟩
      exact .inl ⟨same.symm, many⟩
  rw [separatorOf, intercalate_cons_eq, List.takeWhile_append_of_pos inLine, ended, List.append_nil]
  simp only [List.contains_iff_mem, tabbed]

/-- A line of one field has no separator, so that any will do. -/
theorem separator_found (separates : IsSeparator separator)
    {fields : List (List Char)} (free : ∀ field ∈ fields, ∀ c ∈ field, c ∉ breaks)
    (lineEnd : LineEnd) (lines : List (List Char)) : ∃ found, IsSeparator found ∧
      separatorOf (List.intercalate lineEnd.chars
        (List.intercalate [separator] fields :: lines)) = found ∧
      ∀ others : List (List Char), others.length = fields.length →
        List.intercalate [separator] others = List.intercalate [found] others := by
  rw [separator_of_fields separates free]
  split_ifs with tabbed
  · refine ⟨'\t', .inl rfl, rfl, fun others _ => ?_⟩
    rw [tabbed.1]
  · refine ⟨',', .inr rfl, rfl, fun others width => ?_⟩
    rcases separates with rfl | rfl
    · have narrow : others.length < 2 := by
        have single : ¬ 1 < fields.length := fun many => tabbed ⟨rfl, many⟩
        omega
      match others, narrow with
      | [], _ => rfl
      | [field], _ => rw [List.intercalate_singleton, List.intercalate_singleton]
    · rfl

/-! ## Lines -/

theorem drop_while_append {p : Char → Bool} {front : List Char} (some : front.dropWhile p ≠ [])
    (back : List Char) : (front ++ back).dropWhile p = front.dropWhile p ++ back := by
  rw [List.dropWhile_append, if_neg]
  rwa [List.isEmpty_iff]

theorem begins_with_name {key : String} {field : List Char} (names : NamesField key field)
    (named : key ≠ "") (separator : Char) (more : List Char) :
    Begins separator (field ++ more) := by
  obtain ⟨c, rest, found, free⟩ := names.shows named (.inl rfl)
  simp only [breaks, List.mem_cons, List.not_mem_nil, or_false, not_or] at free
  refine ⟨c, rest ++ more, ?_, free.2.2.1, free.2.2.2, fun isTab => absurd isTab free.1⟩
  rw [drop_while_append (found ▸ List.cons_ne_nil _ _), found, List.cons_append]

theorem begins_with_cell (separates : IsSeparator separator) {cell : String}
    (plain : Plain cell) {others : List (List Char)}
    (some : List.intercalate [separator] (cell.toList :: others) ≠ []) :
    Begins separator (List.intercalate [separator] (cell.toList :: others)) := by
  have kept := ((trim_eq_self_iff cell).mp plain.trimmed).1
  cases chars : cell.toList with
  | nil =>
      rw [chars] at some
      cases others with
      | nil => exact absurd rfl some
      | cons other others =>
          rw [List.intercalate_cons_cons]
          rcases separates with rfl | rfl
          · exact ⟨'\t', _, rfl, by decide⟩
          · exact ⟨',', _, rfl, by decide⟩
  | cons c rest =>
      have free := (plain.free c (chars ▸ List.mem_cons_self)).1
      simp only [breaks, List.mem_cons, List.not_mem_nil, or_false, not_or] at free
      have noSpace : c ≠ ' ' := by
        rintro rfl
        rw [chars, List.dropWhile_cons_of_pos (by decide)] at kept
        have shorter := (List.dropWhile_suffix (l := rest) isBlank).length_le
        rw [kept, List.length_cons] at shorter
        omega
      rw [intercalate_cons_eq, List.cons_append]
      exact ⟨c, _, List.dropWhile_cons_of_neg (by simpa using noSpace), free.2.2.1, free.2.2.2,
        fun isTab => absurd isTab free.1⟩

theorem gives_cells (separates : IsSeparator separator) {cells : List String}
    (plain : ∀ cell ∈ cells, Plain cell)
    (some : List.intercalate [separator] (cells.map String.toList) ≠ []) :
    Gives separator (List.intercalate [separator] (cells.map String.toList)) (.some cells) := by
  have reads : List.Forall₂ FieldText (cells.map String.toList) (cells.map String.toList) := by
    rw [List.forall₂_same]
    intro field listed
    obtain ⟨cell, member, rfl⟩ := List.mem_map.mp listed
    exact .of_free (plain cell member).free
  have begins : Begins separator (List.intercalate [separator] (cells.map String.toList)) := by
    cases cells with
    | nil => exact absurd rfl some
    | cons cell cells => exact begins_with_cell separates (plain cell List.mem_cons_self) some
  have texts : (cells.map String.toList).map String.ofList = cells := by
    rw [List.map_map]
    exact (List.map_congr_left fun cell _ => String.ofList_toList).trans (List.map_id cells)
  have given := gives_fields separates reads begins
  rwa [texts] at given

/-- The line of a row; there are empty lines that are of none. -/
def lineOf (separator : Char) : Option (List String) → List Char
  | none => []
  | some cells => List.intercalate [separator] (cells.map String.toList)

/-- A row whose only cell is empty is an empty line as well. -/
def rowGiven (cells : List String) : Option (List String) :=
  if cells = [""] then none else some cells

theorem eq_of_row_given {cells row : List String} (given : rowGiven cells = some row) :
    cells = row := by
  unfold rowGiven at given
  split_ifs at given
  exact Option.some.inj given

theorem empty_line_iff {cells : List String} (filled : cells ≠ []) :
    List.intercalate [separator] (cells.map String.toList) = [] ↔ cells = [""] := by
  match cells with
  | [] => exact absurd rfl filled
  | [cell] =>
      rw [List.map_cons, List.map_nil, List.intercalate_singleton, List.singleton_inj,
        String.toList_eq_nil_iff]
  | cell :: next :: cells =>
      rw [List.map_cons, List.map_cons, List.intercalate_cons_cons]
      simp

theorem gives_line (separates : IsSeparator separator) {row : Option (List String)}
    (filled : ∀ cells, row = some cells → cells ≠ [])
    (plain : ∀ cells, row = some cells → ∀ cell ∈ cells, Plain cell) :
    Gives separator (lineOf separator row) (row.bind rowGiven) := by
  cases row with
  | none => rfl
  | some cells =>
      specialize filled cells rfl
      specialize plain cells rfl
      rw [lineOf, Option.bind_some, rowGiven]
      split_ifs with empty
      · exact (empty_line_iff filled).mpr empty
      · exact gives_cells separates plain (mt (empty_line_iff filled).mp empty)

/-! ## Whole tables -/

theorem texts_of_names {keys : List String} {fields : List (List Char)}
    (names : List.Forall₂ NamesField keys fields) : ∃ texts, List.Forall₂ FieldText fields texts ∧
      (texts.map String.ofList).map cleanName = keys := by
  induction names with
  | nil => exact ⟨[], .nil, rfl⟩
  | cons first _ ih =>
      obtain ⟨text, reads, cleaned⟩ := first
      obtain ⟨texts, readAll, cleanedAll⟩ := ih
      exact ⟨text :: texts, .cons reads readAll, by rw [← cleaned, ← cleanedAll]; rfl⟩

variable (separator) in
/-- A byte-order mark before the header goes, and so do those that its first name begins with. -/
theorem marks_dropped {keys : List String} {fields : List (List Char)}
    (names : List.Forall₂ NamesField keys fields) (filled : keys ≠ [])
    (named : ∀ key ∈ keys, key ≠ "") : ∃ kept, List.Forall₂ NamesField keys kept ∧
      ∀ (isMarked : Bool) (lineEnd : LineEnd) (lines : List (List Char)),
        ((if isMarked then [byteOrderMark] else []) ++ List.intercalate lineEnd.chars
            (List.intercalate [separator] fields :: lines)).dropWhile (· = byteOrderMark) =
          List.intercalate lineEnd.chars (List.intercalate [separator] kept :: lines) := by
  cases names with
  | nil => exact absurd rfl filled
  | @cons key field keys fields first rest =>
      refine ⟨field.dropWhile (· = byteOrderMark) :: fields, .cons first.dropped rest, ?_⟩
      intro isMarked lineEnd lines
      have unmarked : ∀ chars : List Char,
          ((if isMarked then [byteOrderMark] else []) ++ chars).dropWhile (· = byteOrderMark) =
            chars.dropWhile (· = byteOrderMark) := by
        intro chars
        cases isMarked <;> rfl
      obtain ⟨c, more, found, -⟩ := first.shows (named key List.mem_cons_self) (.inr rfl)
      simp only [unmarked, intercalate_cons_eq, List.append_assoc]
      exact drop_while_append (found ▸ List.cons_ne_nil c more) _

theorem free_of_breaks {fields texts : List (List Char)}
    (reads : List.Forall₂ FieldText fields texts) : ∀ field ∈ fields, ∀ c ∈ field, c ∉ breaks := by
  induction reads with
  | nil => exact fun _ listed => absurd listed List.not_mem_nil
  | cons first _ ih => exact List.forall_mem_cons.mpr ⟨first.free_of_breaks, ih⟩

structure Lines (keys : List String) (fields : List (List Char))
    (body : List (Option (List String))) : Prop where
  names : List.Forall₂ NamesField keys fields
  filled : keys ≠ []
  named : ∀ key ∈ keys, key ≠ ""
  distinct : keys.Nodup
  square : ∀ cells, some cells ∈ body → cells.length = keys.length
  plain : ∀ cells, some cells ∈ body → ∀ cell ∈ cells, Plain cell

namespace Lines

variable {keys : List String} {fields : List (List Char)} {body : List (Option (List String))}

theorem gives (lines : Lines keys fields body) (separates : IsSeparator separator)
    {texts : List (List Char)} (reads : List.Forall₂ FieldText fields texts) :
    List.Forall₂ (Gives separator)
      (List.intercalate [separator] fields :: body.map (lineOf separator))
      (some (texts.map String.ofList) :: body.map (·.bind rowGiven)) := by
  refine .cons ?_ ?_
  · obtain ⟨names, filled, named, -⟩ := lines
    refine gives_fields separates reads ?_
    cases names with
    | nil => exact absurd rfl filled
    | cons first _ =>
        rw [intercalate_cons_eq]
        exact begins_with_name first (named _ List.mem_cons_self) separator _
  · rw [List.forall₂_map_left_iff, List.forall₂_map_right_iff, List.forall₂_same]
    intro row listed
    refine gives_line separates ?_ ?_
    · rintro cells rfl empty
      exact lines.filled (List.eq_nil_of_length_eq_zero (empty ▸ lines.square cells listed).symm)
    · rintro cells rfl
      exact lines.plain cells listed

theorem header_kept (lines : Lines keys fields body) {header : List String}
    (cleaned : header.map cleanName = keys) : distinctNames header = header := by
  have distinct : header.Nodup := by
    refine List.Nodup.of_map cleanName ?_
    rw [cleaned]
    exact lines.distinct
  refine distinct_names_kept distinct fun name listed => ?_
  refine Bool.eq_false_iff.mpr fun empty => ?_
  have key : cleanName name ∈ keys := cleaned ▸ List.mem_map_of_mem listed
  rw [String.isEmpty_iff.mp empty] at key
  exact lines.named _ key rfl

theorem width_of_given (lines : Lines keys fields body) {row : List String}
    (listed : row ∈ body.filterMap (·.bind rowGiven)) : row.length = keys.length := by
  obtain ⟨_, member, bound⟩ := List.mem_filterMap.mp listed
  obtain ⟨cells, rfl, given⟩ := Option.bind_eq_some_iff.mp bound
  rw [← eq_of_row_given given, lines.square cells member]

/-- However its lines are spelled, a table is parsed as its names and its rows. -/
theorem parse {α : Type} (lines : Lines keys fields body)
    (separates : IsSeparator separator) {lineEnd : LineEnd} {text : String}
    (spelled : text.toList.dropWhile (· = byteOrderMark) = List.intercalate lineEnd.chars
      (List.intercalate [separator] fields :: body.map (lineOf separator))) :
    Table.parse text = (.ok {
      columns := keys
      rows := (body.filterMap (·.bind rowGiven)).map (List.map cellOf) } :
        Except (Fault α) TextTable) := by
  obtain ⟨texts, reads, cleaned⟩ := texts_of_names lines.names
  -- With a single column another separator may be found than was meant; the lines are the same.
  obtain ⟨found, separates', isFound, same⟩ :=
    separator_found separates (free_of_breaks reads) lineEnd (body.map (lineOf separator))
  have sameLines : body.map (lineOf separator) = body.map (lineOf found) := by
    refine List.map_congr_left fun row listed => ?_
    cases row with
    | none => rfl
    | some cells =>
        refine same _ ?_
        rw [List.length_map, lines.square cells listed, lines.names.length_eq]
  have given : (body.map (·.bind rowGiven)).reduceOption = body.filterMap (·.bind rowGiven) := by
    rw [List.reduceOption, List.filterMap_map]
    rfl
  have scanned := scan_lines (lines.gives separates' reads) lineEnd
  rw [List.reduceOption_cons_of_some, given, ← sameLines, ← same fields rfl, ← isFound,
    ← spelled] at scanned
  have square : ∀ row ∈ body.filterMap (·.bind rowGiven),
      row.length = (texts.map String.ofList).length := by
    intro row listed
    rw [lines.width_of_given listed, ← cleaned, List.length_map]
  rw [parse_of_scan scanned square, lines.header_kept cleaned, cleaned]

end Lines

end EdgePlacement.Table
