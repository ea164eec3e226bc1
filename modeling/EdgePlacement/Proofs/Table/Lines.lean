import Mathlib.Data.List.Forall2
import Mathlib.Data.List.ReduceOption
import Mathlib.Tactic.SplitIfs
import EdgePlacement.Table.Scan

/-!
# Lines read by a scan

A scan reads a text line by line: a line that holds fields gives the row of their texts, an empty
line gives none, and what came before a line has no part in what it gives.
-/

namespace EdgePlacement.Table

set_option autoImplicit false

def breaks : List Char := ['\t', ',', '\n', '\r']

def IsSeparator (c : Char) : Prop :=
  c = '\t' ∨ c = ','

/-- How the characters of a field are read: as they are, or rid of the quotes that a field begins
with. No quote may begin a field behind a byte-order mark either, as the mark may go. -/
inductive FieldText : List Char → List Char → Prop where
  | bare (chars : List Char) (free : ∀ c ∈ chars, c ∉ breaks)
      (unquoted : (chars.dropWhile (· = byteOrderMark)).head? ≠ some quoteMark) :
      FieldText chars chars
  | quoted (inside after : List Char)
      (free : ∀ c ∈ inside ++ after, c ∉ breaks ∧ c ≠ quoteMark) :
      FieldText (quoteMark :: inside ++ quoteMark :: after) (inside ++ after)

theorem FieldText.free_of_breaks {chars text : List Char} (reads : FieldText chars text) :
    ∀ c ∈ chars, c ∉ breaks := by
  cases reads with
  | bare _ free => exact free
  | quoted inside after free =>
      intro c member
      rw [List.cons_append, List.mem_cons, List.mem_append, List.mem_cons] at member
      rcases member with rfl | listed | rfl | listed
      · decide
      · exact (free c (List.mem_append_left after listed)).1
      · decide
      · exact (free c (List.mem_append_right inside listed)).1

def ScanMode.IsOpen (mode : ScanMode) : Prop :=
  mode = .fieldStart ∨ mode = .inField ∨ mode = .quoteSeen

def ScanMode.IsFresh (mode : ScanMode) : Prop :=
  mode = .rowStart ∨ mode = .afterReturn

namespace ScanState

variable {separator : Char} {rows : List (List String)} {fields : List String}

theorem read_plain_eq {mode : ScanMode} {field : List Char} {c : Char} (free : c ∉ breaks)
    (separates : IsSeparator separator) :
    readPlain separator ⟨mode, rows, fields, field⟩ c = ⟨.inField, rows, fields, c :: field⟩ := by
  simp only [breaks, List.mem_cons, List.not_mem_nil, or_false, not_or] at free
  have other : c ≠ separator := by
    rintro rfl
    exact separates.elim free.1 free.2.1
  unfold readPlain
  rw [if_neg free.2.2.1, if_neg free.2.2.2, if_neg other]
  rfl

theorem read_in_field (separates : IsSeparator separator) {chars : List Char}
    (free : ∀ c ∈ chars, c ∉ breaks) (field : List Char) :
    chars.foldl (read separator) ⟨.inField, rows, fields, field⟩ =
      ⟨.inField, rows, fields, chars.reverse ++ field⟩ := by
  induction chars generalizing field with
  | nil => rfl
  | cons c rest ih =>
      have first : read separator ⟨.inField, rows, fields, field⟩ c =
          ⟨.inField, rows, fields, c :: field⟩ :=
        read_plain_eq (free c List.mem_cons_self) separates
      rw [List.foldl_cons, first, ih fun d member => free d (List.mem_cons_of_mem c member),
        List.reverse_cons, List.append_assoc, List.singleton_append]

theorem read_in_quotes {chars : List Char} (free : quoteMark ∉ chars) (field : List Char) :
    chars.foldl (read separator) ⟨.inQuotes, rows, fields, field⟩ =
      ⟨.inQuotes, rows, fields, chars.reverse ++ field⟩ := by
  induction chars generalizing field with
  | nil => rfl
  | cons c rest ih =>
      rw [List.mem_cons, not_or] at free
      have first : read separator ⟨.inQuotes, rows, fields, field⟩ c =
          ⟨.inQuotes, rows, fields, c :: field⟩ := if_neg (Ne.symm free.1)
      rw [List.foldl_cons, first, ih free.2, List.reverse_cons, List.append_assoc,
        List.singleton_append]

variable (rows fields) in
/-- Reading the characters of a field leaves its text to be ended by what comes next. -/
theorem read_field (separates : IsSeparator separator) {chars text : List Char}
    (reads : FieldText chars text) : ∃ mode, ScanMode.IsOpen mode ∧
      chars.foldl (read separator) ⟨.fieldStart, rows, fields, []⟩ =
        ⟨mode, rows, fields, text.reverse⟩ := by
  cases reads with
  | bare _ free unquoted =>
      cases chars with
      | nil => exact ⟨.fieldStart, .inl rfl, rfl⟩
      | cons c rest =>
          have noQuote : c ≠ quoteMark := by
            rintro rfl
            exact unquoted rfl
          have first : read separator ⟨.fieldStart, rows, fields, []⟩ c =
              ⟨.inField, rows, fields, [c]⟩ :=
            (if_neg noQuote).trans (read_plain_eq (free c List.mem_cons_self) separates)
          refine ⟨.inField, .inr (.inl rfl), ?_⟩
          rw [List.foldl_cons, first,
            read_in_field separates fun d member => free d (List.mem_cons_of_mem c member),
            List.reverse_cons]
  | quoted inside after free =>
      have insideFree : quoteMark ∉ inside := fun member =>
        (free quoteMark (List.mem_append_left after member)).2 rfl
      have afterFree : ∀ c ∈ after, c ∉ breaks ∧ c ≠ quoteMark := fun c member =>
        free c (List.mem_append_right inside member)
      have opened : read separator ⟨.fieldStart, rows, fields, []⟩ quoteMark =
          ⟨.inQuotes, rows, fields, []⟩ := rfl
      have closed : read separator ⟨.inQuotes, rows, fields, inside.reverse ++ []⟩ quoteMark =
          ⟨.quoteSeen, rows, fields, inside.reverse ++ []⟩ := rfl
      rw [List.cons_append, List.foldl_cons, opened, List.foldl_append, read_in_quotes insideFree,
        List.foldl_cons, closed, List.append_nil]
      cases after with
      | nil => exact ⟨.quoteSeen, .inr (.inr rfl), by rw [List.append_nil]; rfl⟩
      | cons c rest =>
          obtain ⟨noBreak, noQuote⟩ := afterFree c List.mem_cons_self
          have first : read separator ⟨.quoteSeen, rows, fields, inside.reverse⟩ c =
              ⟨.inField, rows, fields, c :: inside.reverse⟩ :=
            (if_neg noQuote).trans (read_plain_eq noBreak separates)
          refine ⟨.inField, .inr (.inl rfl), ?_⟩
          rw [List.foldl_cons, first,
            read_in_field separates fun d member => (afterFree d (List.mem_cons_of_mem c member)).1,
            List.reverse_append, List.reverse_cons, List.append_assoc, List.singleton_append]

structure EndsRow (s : ScanState) (row : List String) (rows : List (List String)) : Prop where
  isOpen : s.mode.IsOpen
  ended : ∀ mode, s.endRow mode = ⟨mode, row :: rows, [], []⟩

theorem read_separator (separates : IsSeparator separator) {mode : ScanMode}
    (isOpen : mode.IsOpen) (text : List Char) :
    read separator ⟨mode, rows, fields, text.reverse⟩ separator =
      ⟨.fieldStart, rows, String.ofList text :: fields, []⟩ := by
  have plain : readPlain separator ⟨mode, rows, fields, text.reverse⟩ separator =
      ⟨.fieldStart, rows, String.ofList text :: fields, []⟩ := by
    have ended : endField ⟨mode, rows, fields, text.reverse⟩ =
        ⟨.fieldStart, rows, String.ofList text :: fields, []⟩ := by
      rw [endField, List.reverse_reverse]
    rcases separates with rfl | rfl <;> exact ended
  rw [← plain]
  rcases isOpen with rfl | rfl | rfl <;> rcases separates with rfl | rfl <;> rfl

theorem read_fields (separates : IsSeparator separator)
    {chars texts : List (List Char)} (reads : List.Forall₂ FieldText chars texts)
    (some : chars ≠ []) :
    EndsRow ((List.intercalate [separator] chars).foldl (read separator)
      ⟨.fieldStart, rows, fields, []⟩) (fields.reverse ++ texts.map String.ofList) rows := by
  induction reads generalizing fields with
  | nil => exact absurd rfl some
  | @cons field text more texts first rest ih =>
      obtain ⟨mode, isOpen, ended⟩ :=
        read_field rows fields separates first
      cases rest with
      | nil =>
          rw [List.intercalate_singleton, ended]
          refine ⟨isOpen, fun mode => ?_⟩
          rw [endRow, endField, List.reverse_reverse]
          simp only [List.reverse_cons, List.map_cons, List.map_nil]
      | @cons next nextText more texts second rest =>
          have later := @ih (String.ofList text :: fields) (List.cons_ne_nil _ _)
          rw [List.intercalate_cons_cons, List.foldl_append, List.foldl_append, ended,
            List.foldl_cons, List.foldl_nil, read_separator separates isOpen]
          rwa [List.reverse_cons, List.append_assoc, List.singleton_append] at later

/-! ## The beginning of a line -/

def Begins (separator : Char) (line : List Char) : Prop :=
  ∃ c rest, line.dropWhile (· = ' ') = c :: rest ∧ c ≠ '\n' ∧ c ≠ '\r' ∧
    (c = '\t' → separator = '\t')

/-- A character that ends a field or belongs to it does so in any mode. -/
theorem read_plain_any_mode (s : ScanState) (mode : ScanMode) (c : Char) :
    readPlain separator { s with mode } c = readPlain separator s c := by
  unfold readPlain
  split_ifs <;> rfl

theorem no_blank {c : Char} (noSpace : c ≠ ' ') (tabbed : c = '\t' → separator = '\t') :
    ¬ ((c = ' ' || c = '\t') && c ≠ separator) = true := by
  simp only [Bool.and_eq_true, Bool.or_eq_true, decide_eq_true_eq]
  rintro ⟨rfl | rfl, apart⟩
  · exact noSpace rfl
  · exact apart (tabbed rfl).symm

theorem read_blank_line (separates : IsSeparator separator) {line : List Char}
    (begins : Begins separator line) (field : List Char) :
    line.foldl (read separator) ⟨.blankLine, rows, fields, field⟩ =
      line.foldl (read separator) ⟨.inField, rows, fields, field⟩ := by
  induction line generalizing field with
  | nil =>
      obtain ⟨c, rest, found, -⟩ := begins
      cases found
  | cons d line ih =>
      rw [List.foldl_cons, List.foldl_cons]
      by_cases space : d = ' '
      · subst space
        have blank : read separator ⟨.blankLine, rows, fields, field⟩ ' ' =
            ⟨.blankLine, rows, fields, ' ' :: field⟩ := by
          rcases separates with rfl | rfl <;> rfl
        have plain : read separator ⟨.inField, rows, fields, field⟩ ' ' =
            ⟨.inField, rows, fields, ' ' :: field⟩ :=
          read_plain_eq (by decide) separates
        rw [blank, plain]
        exact ih begins (' ' :: field)
      · obtain ⟨c, rest, found, noFeed, noReturn, tabbed⟩ := begins
        rw [List.dropWhile_cons_of_neg (by simpa using space)] at found
        obtain ⟨rfl, rfl⟩ := List.cons.inj found
        have same : read separator ⟨.blankLine, rows, fields, field⟩ d =
            read separator ⟨.inField, rows, fields, field⟩ d := by
          change readBlankLine separator _ d = readPlain separator _ d
          unfold readBlankLine
          rw [if_neg noFeed, if_neg noReturn, if_neg (no_blank space tabbed)]
          exact read_plain_any_mode ⟨.inField, rows, fields, field⟩ .blankLine d
        rw [same]

/-- A line that begins a field is read as if the row were under way. -/
theorem read_fresh_line (separates : IsSeparator separator) {mode : ScanMode}
    (isFresh : mode.IsFresh) {line : List Char} (begins : Begins separator line) :
    line.foldl (read separator) ⟨mode, rows, fields, []⟩ =
      line.foldl (read separator) ⟨.fieldStart, rows, fields, []⟩ := by
  cases line with
  | nil =>
      obtain ⟨c, rest, found, -⟩ := begins
      cases found
  | cons d line =>
      rw [List.foldl_cons, List.foldl_cons]
      by_cases space : d = ' '
      · subst space
        have blank : read separator ⟨mode, rows, fields, []⟩ ' ' =
            ⟨.blankLine, rows, fields, [' ']⟩ := by
          rcases isFresh with rfl | rfl <;> rcases separates with rfl | rfl <;> rfl
        have plain : read separator ⟨.fieldStart, rows, fields, []⟩ ' ' =
            ⟨.inField, rows, fields, [' ']⟩ := by
          rcases separates with rfl | rfl <;> rfl
        have later : Begins separator line := begins
        rw [blank, plain]
        exact read_blank_line separates later [' ']
      · obtain ⟨c, rest, found, noFeed, noReturn, tabbed⟩ := begins
        rw [List.dropWhile_cons_of_neg (by simpa using space)] at found
        obtain ⟨rfl, rfl⟩ := List.cons.inj found
        have same : read separator ⟨mode, rows, fields, []⟩ d =
            read separator ⟨.fieldStart, rows, fields, []⟩ d := by
          have started : read separator ⟨mode, rows, fields, []⟩ d =
              readRowStart separator ⟨mode, rows, fields, []⟩ d := by
            rcases isFresh with rfl | rfl
            · rfl
            · exact if_neg noFeed
          rw [started]
          change _ = readFieldStart separator _ d
          unfold readRowStart readFieldStart
          rw [if_neg noFeed, if_neg noReturn, if_neg (no_blank space tabbed)]
          split_ifs
          · rfl
          · exact read_plain_any_mode ⟨.fieldStart, rows, fields, []⟩ mode d
        rw [same]

end ScanState

/-! ## Line by line -/

inductive LineEnd where
  | lineFeed
  | carriageReturn
  | both

def LineEnd.chars : LineEnd → List Char
  | lineFeed => ['\n']
  | carriageReturn => ['\r']
  | both => ['\r', '\n']

namespace ScanState

variable {separator : Char} {rows : List (List String)}

theorem EndsRow.end_line {s : ScanState} {row : List String} (ends : s.EndsRow row rows)
    (lineEnd : LineEnd) : ∃ mode, ScanMode.IsFresh mode ∧
      lineEnd.chars.foldl (read separator) s = ⟨mode, row :: rows, [], []⟩ := by
  have feed : read separator s '\n' = ⟨.rowStart, row :: rows, [], []⟩ := by
    rw [← ends.ended]
    rcases s with ⟨mode, _, _, _⟩
    rcases ends.isOpen with isMode | isMode | isMode <;> cases isMode <;> rfl
  have returned : read separator s '\r' = ⟨.afterReturn, row :: rows, [], []⟩ := by
    rw [← ends.ended]
    rcases s with ⟨mode, _, _, _⟩
    rcases ends.isOpen with isMode | isMode | isMode <;> cases isMode <;> rfl
  cases lineEnd with
  | lineFeed => exact ⟨.rowStart, .inl rfl, feed⟩
  | carriageReturn => exact ⟨.afterReturn, .inr rfl, returned⟩
  | both =>
      refine ⟨.rowStart, .inl rfl, ?_⟩
      rw [LineEnd.chars, List.foldl_cons, returned]
      rfl

theorem EndsRow.finished {s : ScanState} {row : List String} (ends : s.EndsRow row rows) :
    s.finish? = some (row :: rows).reverse := by
  have closed : s.finish? = some (s.endRow .rowStart).rows.reverse := by
    rcases s with ⟨mode, _, _, _⟩
    rcases ends.isOpen with isMode | isMode | isMode <;> cases isMode <;> rfl
  rw [closed, ends.ended]

variable (separator rows) in
theorem skip_line (lineEnd : LineEnd) {mode : ScanMode} (isFresh : mode.IsFresh) :
    ∃ mode', ScanMode.IsFresh mode' ∧
      lineEnd.chars.foldl (read separator) ⟨mode, rows, [], []⟩ = ⟨mode', rows, [], []⟩ := by
  rcases isFresh with rfl | rfl <;> cases lineEnd
  · exact ⟨.rowStart, .inl rfl, rfl⟩
  · exact ⟨.afterReturn, .inr rfl, rfl⟩
  · exact ⟨.rowStart, .inl rfl, rfl⟩
  · exact ⟨.rowStart, .inl rfl, rfl⟩
  · exact ⟨.afterReturn, .inr rfl, rfl⟩
  · exact ⟨.rowStart, .inl rfl, rfl⟩

/-- What a line gives: nothing if it is empty, else a row, whatever has been read before. -/
def Gives (separator : Char) (line : List Char) : Option (List String) → Prop
  | none => line = []
  | some row => ∀ mode rows, ScanMode.IsFresh mode →
      EndsRow (line.foldl (read separator) ⟨mode, rows, [], []⟩) row rows

theorem gives_fields (separates : IsSeparator separator)
    {chars texts : List (List Char)} (reads : List.Forall₂ FieldText chars texts)
    (begins : Begins separator (List.intercalate [separator] chars)) :
    Gives separator (List.intercalate [separator] chars) (some (texts.map String.ofList)) := by
  intro mode rows isFresh
  have some : chars ≠ [] := by
    rintro rfl
    obtain ⟨c, rest, found, -⟩ := begins
    cases found
  rw [read_fresh_line separates isFresh begins]
  exact read_fields separates reads some

theorem scan_from {lines : List (List Char)} {given : List (Option (List String))}
    (gives : List.Forall₂ (Gives separator) lines given) (lineEnd : LineEnd) {mode : ScanMode}
    (isFresh : mode.IsFresh) :
    ((List.intercalate lineEnd.chars lines).foldl (read separator) ⟨mode, rows, [], []⟩).finish? =
      some (rows.reverse ++ given.reduceOption) := by
  -- Between lines all that counts is that the next one begins, and the rows so far.
  induction gives generalizing mode rows with
  | nil =>
      rw [List.intercalate_nil]
      rcases isFresh with rfl | rfl <;> simp [finish?]
  | @cons line row lines given first rest ih =>
      cases rest with
      | nil =>
          rw [List.intercalate_singleton]
          cases row with
          | none =>
              cases first
              rcases isFresh with rfl | rfl <;> simp [finish?]
          | some row =>
              have ends := first mode rows isFresh
              generalize line.foldl (read separator) ⟨mode, rows, [], []⟩ = s at ends
              rw [ends.finished]
              simp
      | @cons next nextRow lines given second rest =>
          rw [List.intercalate_cons_cons, List.foldl_append, List.foldl_append]
          cases row with
          | none =>
              cases first
              obtain ⟨mode', isFresh', skipped⟩ :=
                skip_line separator rows lineEnd isFresh
              rw [List.foldl_nil, skipped, ih isFresh']
              rfl
          | some row =>
              obtain ⟨mode', isFresh', ended⟩ := (first mode rows isFresh).end_line lineEnd
              rw [ended, ih isFresh', List.reverse_cons, List.append_assoc,
                List.singleton_append]
              rfl

/-- A scan gives the rows of the lines that are not empty. -/
theorem scan_lines {lines : List (List Char)} {given : List (Option (List String))}
    (gives : List.Forall₂ (Gives separator) lines given) (lineEnd : LineEnd) :
    scanRows? separator (List.intercalate lineEnd.chars lines) = some given.reduceOption :=
  scan_from gives lineEnd (.inl rfl)

end ScanState
end EdgePlacement.Table
