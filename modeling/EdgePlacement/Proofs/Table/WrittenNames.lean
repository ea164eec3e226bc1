import Mathlib.Data.List.DropRight
import Mathlib.Data.List.TakeWhile
import Mathlib.Tactic.SplitIfs
import EdgePlacement.Proofs.Table.Lines
import EdgePlacement.Proofs.Text.LetterCase
import EdgePlacement.Table.Header

/-!
# Names as they stand in a header

A name may stand in a header in any letter case, between quotes or not, and with spaces around it or
within the quotes. Whichever way it is written, its field is read as a text that is cleaned to the
same name.
-/

namespace EdgePlacement.Table

open EdgePlacement.Text

set_option autoImplicit false

/-- Nothing in the text could be taken for a separator, a quote or the end of a line, and no blank
is at its ends. -/
structure Plain (text : String) : Prop where
  free : ∀ c ∈ text.toList, c ∉ breaks ∧ c ≠ quoteMark
  trimmed : trim text = text

theorem plain_iff (text : String) : Plain text ↔
    text.toList.all (fun c => c ∉ breaks && c ≠ quoteMark) = true ∧ trim text = text := by
  simp only [List.all_eq_true, Bool.and_eq_true, decide_eq_true_eq]
  exact ⟨fun ⟨free, trimmed⟩ => ⟨free, trimmed⟩, fun ⟨free, trimmed⟩ => ⟨free, trimmed⟩⟩

instance (text : String) : Decidable (Plain text) :=
  decidable_of_iff' _ (plain_iff text)

def unmarked (name : String) : String :=
  String.ofList (name.toList.filter fun c => !decide (c = byteOrderMark))

structure WrittenName where
  letters : String
  isQuoted : Bool
  /-- Counts of spaces: before and after all, and next to the letters on their two sides. -/
  before : Nat
  after : Nat
  innerBefore : Nat
  innerAfter : Nat

def spaces (count : Nat) : List Char :=
  List.replicate count ' '

namespace WrittenName

def quotes (w : WrittenName) : List Char :=
  if w.isQuoted then [quoteMark] else []

def inner (w : WrittenName) : List Char :=
  spaces w.innerBefore ++ w.letters.toList ++ spaces w.innerAfter

def chars (w : WrittenName) : List Char :=
  spaces w.before ++ w.quotes ++ w.inner ++ w.quotes ++ spaces w.after

def Writes (w : WrittenName) (name : String) : Prop :=
  lowerCase w.letters = lowerCase name

end WrittenName

/-! ## Cleaning -/

theorem mark_within_words : WordMark byteOrderMark where
  caseless := caseless_of_code (by decide +kernel)
  ignorable := by decide +kernel

theorem reserved_is_caseless {c : Char} (reserved : c ∈ quoteMark :: breaks) : Caseless c := by
  have checked : (quoteMark :: breaks).all (fun c => isCaselessCode c.toNat) = true := by
    decide +kernel
  exact caseless_of_code (List.all_eq_true.mp checked c reserved)

theorem unmarked_lower_case (s : String) : unmarked (lowerCase s) = lowerCase (unmarked s) := by
  have marks : ∀ c, decide (c = byteOrderMark) = true → WordMark c := by
    intro c held
    rw [of_decide_eq_true held]
    exact mark_within_words
  rw [unmarked, unmarked, lowerCase, lowerCase, String.toList_ofList, String.toList_ofList,
    filter_lower_from marks]
  rfl

/-- Names that differ in letter case only are the same but for letter case without their marks,
too. -/
theorem WrittenName.Writes.unmarked {w : WrittenName} {name : String} (writes : w.Writes name) :
    lowerCase (unmarked w.letters) = lowerCase (unmarked name) := by
  rw [← unmarked_lower_case, writes, unmarked_lower_case]

theorem trim_spaces (front back : Nat) (s : List Char) :
    trimChars (spaces front ++ s ++ spaces back) = trimChars s := by
  have blank : ∀ (count : Nat), ∀ c ∈ spaces count, isBlank c = true := by
    intro count c member
    rw [List.eq_of_mem_replicate member]
    decide
  have start : ∀ (count : Nat) (s : List Char), trimStartChars (spaces count ++ s) =
      trimStartChars s := fun count s => List.dropWhile_append_of_pos (blank count)
  unfold trimChars
  rw [List.append_assoc, start]
  unfold trimStartChars
  rw [List.dropWhile_append]
  split_ifs with none
  · rw [List.isEmpty_iff.mp none, List.dropWhile_eq_nil_iff.mpr (blank back)]
  · have reversed : (spaces back).reverse = spaces back := List.reverse_replicate
    rw [List.reverse_append, reversed]
    exact congrArg List.reverse (start back _)

/-- What is left of the characters of a name once marks and quotes have been taken out of them. -/
def lettersOf (chars : List Char) : List Char :=
  chars.filter fun c => c ≠ byteOrderMark && c ≠ quoteMark

theorem clean_name_eq (chars : List Char) :
    cleanName (String.ofList chars) = lowerCase (trim (String.ofList (lettersOf chars))) := by
  rw [cleanName, String.toList_ofList]
  rfl

theorem letters_of_append (front back : List Char) :
    lettersOf (front ++ back) = lettersOf front ++ lettersOf back :=
  List.filter_append front back

theorem letters_of_spaces (count : Nat) : lettersOf (spaces count) = spaces count :=
  List.filter_replicate_of_pos (by decide)

theorem letters_of_quotes (w : WrittenName) : lettersOf w.quotes = [] := by
  unfold WrittenName.quotes
  cases w.isQuoted <;> rfl

theorem letters_of_unquoted {s : String} (free : ∀ c ∈ s.toList, c ∉ breaks ∧ c ≠ quoteMark) :
    lettersOf s.toList = (unmarked s).toList := by
  unfold lettersOf unmarked
  rw [String.toList_ofList]
  refine List.filter_congr fun c member => ?_
  simp [(free c member).2]

theorem letters_of_dropped (chars : List Char) :
    lettersOf (chars.dropWhile (· = byteOrderMark)) = lettersOf chars := by
  induction chars with
  | nil => rfl
  | cons c rest ih =>
      by_cases mark : c = byteOrderMark
      · rw [List.dropWhile_cons_of_pos (by simpa using mark), ih]
        subst mark
        rfl
      · rw [List.dropWhile_cons_of_neg (by simpa using mark)]

variable {w : WrittenName} {name : String}

/-- What is cleaned to a name: its letters in any case, with any marks, quotes and spaces. -/
theorem clean_name_of_letters (writes : w.Writes name) (plain : Plain (unmarked name))
    {text : List Char} {front back : Nat}
    (letters : lettersOf text = spaces front ++ (unmarked w.letters).toList ++ spaces back) :
    cleanName (String.ofList text) = lowerCase (unmarked name) := by
  have trimmed : trim (unmarked w.letters) = unmarked w.letters := by
    rw [← trim_lower_case_iff, writes.unmarked, trim_lower_case_iff]
    exact plain.trimmed
  calc cleanName (String.ofList text)
      = lowerCase (trim (String.ofList (lettersOf text))) := clean_name_eq text
    _ = lowerCase (trim (unmarked w.letters)) := by
        rw [trim, trim, letters, String.toList_ofList, trim_spaces]
    _ = lowerCase (unmarked name) := by rw [trimmed, writes.unmarked]

theorem clean_name_of_blanks {blank : Char} (isBlank : blank = ' ' ∨ blank = byteOrderMark)
    {chars : List Char} (all : ∀ c ∈ chars, c = blank) : cleanName (String.ofList chars) = "" := by
  have letters : ∃ count, lettersOf chars = spaces count := by
    rcases isBlank with rfl | rfl
    · rw [List.eq_replicate_of_mem all]
      exact ⟨_, letters_of_spaces _⟩
    · refine ⟨0, List.filter_eq_nil_iff.mpr fun c member => ?_⟩
      rw [all c member]
      decide
  obtain ⟨count, letters⟩ := letters
  have none : trimChars (spaces count) = [] := by
    have trimmed := trim_spaces count 0 []
    rwa [List.append_nil, spaces, spaces, List.replicate_zero, List.append_nil] at trimmed
  rw [clean_name_eq, letters, trim, String.toList_ofList, none]
  rfl

/-! ## Fields of a header -/

theorem letters_free (writes : w.Writes name) (plain : Plain (unmarked name)) :
    ∀ c ∈ w.letters.toList, c ∉ breaks ∧ c ≠ quoteMark := by
  intro c member
  have unreserved : c ∉ quoteMark :: breaks := by
    intro reserved
    have caseless := reserved_is_caseless reserved
    have inName : c ∈ name.toList := by
      rw [← mem_lower_case_iff caseless, ← writes, mem_lower_case_iff caseless]
      exact member
    have noMark : c ≠ byteOrderMark := by
      rintro rfl
      revert reserved
      decide
    have kept : c ∈ (unmarked name).toList := by
      rw [unmarked, String.toList_ofList, List.mem_filter]
      exact ⟨inName, by simpa using noMark⟩
    obtain ⟨noBreak, noQuote⟩ := plain.free c kept
    exact (List.mem_cons.mp reserved).elim noQuote noBreak
  rw [List.mem_cons, not_or] at unreserved
  exact unreserved.symm

theorem spaces_free (count : Nat) : ∀ c ∈ spaces count, c ∉ breaks ∧ c ≠ quoteMark := by
  intro c member
  rw [List.eq_of_mem_replicate member]
  decide

def NamesField (key : String) (chars : List Char) : Prop :=
  ∃ text, FieldText chars text ∧ cleanName (String.ofList text) = key

theorem inner_free (writes : w.Writes name) (plain : Plain (unmarked name)) :
    ∀ c ∈ w.inner, c ∉ breaks ∧ c ≠ quoteMark := by
  intro c member
  rw [WrittenName.inner, List.mem_append, List.mem_append] at member
  rcases member with (front | within) | back
  · exact spaces_free _ c front
  · exact letters_free writes plain c within
  · exact spaces_free _ c back

theorem FieldText.of_free {chars : List Char} (free : ∀ c ∈ chars, c ∉ breaks ∧ c ≠ quoteMark) :
    FieldText chars chars := by
  refine .bare chars (fun c member => (free c member).1) fun first => ?_
  have member : quoteMark ∈ chars := (List.dropWhile_sublist _).subset (List.mem_of_head? first)
  exact (free quoteMark member).2 rfl

theorem letters_of_inner (free : ∀ c ∈ w.letters.toList, c ∉ breaks ∧ c ≠ quoteMark) :
    lettersOf w.inner =
      spaces w.innerBefore ++ (unmarked w.letters).toList ++ spaces w.innerAfter := by
  rw [WrittenName.inner, letters_of_append, letters_of_append, letters_of_spaces,
    letters_of_spaces, letters_of_unquoted free]

/-- A field without quotes is all text, and so is one that begins with a space: the quotes behind it
open nothing. -/
theorem bare_name_field (free : ∀ c ∈ w.inner, c ∉ breaks ∧ c ≠ quoteMark)
    (bare : w.isQuoted = false ∨ w.before ≠ 0) : FieldText w.chars w.chars := by
  cases quoted : w.isQuoted with
  | false =>
      have noQuotes : w.quotes = [] := by rw [WrittenName.quotes, quoted]; rfl
      refine .of_free fun c member => ?_
      simp only [WrittenName.chars, noQuotes, List.append_nil, List.mem_append] at member
      rcases member with (front | within) | back
      · exact spaces_free _ c front
      · exact free c within
      · exact spaces_free _ c back
  | true =>
      have quotes : w.quotes = [quoteMark] := by rw [WrittenName.quotes, quoted]; rfl
      have spaced : w.before ≠ 0 := bare.resolve_left (by rw [quoted]; decide)
      obtain ⟨count, before⟩ := Nat.exists_eq_succ_of_ne_zero spaced
      refine .bare w.chars (fun c member => ?_) ?_
      · simp only [WrittenName.chars, quotes, List.mem_append, List.mem_singleton] at member
        rcases member with (((front | rfl) | within) | rfl) | back
        · exact (spaces_free _ c front).1
        · decide
        · exact (free c within).1
        · decide
        · exact (spaces_free _ c back).1
      · have first : w.chars = ' ' :: (spaces count ++ w.quotes ++ w.inner ++ w.quotes ++
            spaces w.after) := by
          rw [WrittenName.chars, before]
          rfl
        rw [first, List.dropWhile_cons_of_neg (by decide), List.head?_cons]
        decide

theorem quoted_name_field (free : ∀ c ∈ w.inner, c ∉ breaks ∧ c ≠ quoteMark)
    (quoted : w.isQuoted = true) (first : w.before = 0) :
    FieldText w.chars (w.inner ++ spaces w.after) := by
  have split : w.chars = quoteMark :: w.inner ++ quoteMark :: spaces w.after := by
    rw [WrittenName.chars, WrittenName.quotes, quoted, first]
    simp [spaces]
  rw [split]
  refine .quoted w.inner (spaces w.after) fun c member => ?_
  exact (List.mem_append.mp member).elim (free c) (spaces_free _ c)

/-- A quote that comes first opens quotes; any other stands in the text and is cleaned away. -/
theorem written_name_field (writes : w.Writes name) (plain : Plain (unmarked name)) :
    NamesField (lowerCase (unmarked name)) w.chars := by
  have free := inner_free writes plain
  have inner := letters_of_inner (letters_free writes plain)
  have joined : ∀ m n, spaces m ++ spaces n = spaces (m + n) := fun m n =>
    List.replicate_append_replicate
  by_cases bare : w.isQuoted = false ∨ w.before ≠ 0
  · have letters : lettersOf w.chars = spaces (w.before + w.innerBefore) ++
        (unmarked w.letters).toList ++ spaces (w.innerAfter + w.after) := by
      simp only [WrittenName.chars, letters_of_append, letters_of_spaces, letters_of_quotes, inner,
        ← joined, List.append_assoc, List.nil_append]
    exact ⟨w.chars, bare_name_field free bare, clean_name_of_letters writes plain letters⟩
  · rw [not_or, Bool.not_eq_false, not_not] at bare
    have letters : lettersOf (w.inner ++ spaces w.after) = spaces w.innerBefore ++
        (unmarked w.letters).toList ++ spaces (w.innerAfter + w.after) := by
      rw [letters_of_append, inner, letters_of_spaces, ← joined, List.append_assoc]
    exact ⟨_, quoted_name_field free bare.1 bare.2, clean_name_of_letters writes plain letters⟩

theorem NamesField.dropped {key : String} {chars : List Char} (field : NamesField key chars) :
    NamesField key (chars.dropWhile (· = byteOrderMark)) := by
  obtain ⟨text, reads, cleaned⟩ := field
  cases reads with
  | bare _ free unquoted =>
      have same : cleanName (String.ofList (chars.dropWhile (· = byteOrderMark))) =
          cleanName (String.ofList chars) := by
        rw [clean_name_eq, clean_name_eq, letters_of_dropped]
      refine ⟨_, .bare _ (fun c member => free c ((List.dropWhile_sublist _).subset member)) ?_,
        same.trans cleaned⟩
      rwa [List.dropWhile_idempotent]
  | quoted inside after free => exact ⟨_, .quoted inside after free, cleaned⟩

/-- A name that is not empty shows in its field: it has more than spaces and byte-order marks. -/
theorem NamesField.shows {key : String} {chars : List Char} (field : NamesField key chars)
    (named : key ≠ "") {blank : Char} (isBlank : blank = ' ' ∨ blank = byteOrderMark) :
    ∃ c rest, chars.dropWhile (· = blank) = c :: rest ∧ c ∉ breaks := by
  obtain ⟨text, reads, cleaned⟩ := field
  cases found : chars.dropWhile (· = blank) with
  | cons c rest =>
      have member : c ∈ chars :=
        (List.dropWhile_sublist _).subset (found ▸ List.mem_cons_self)
      exact ⟨c, rest, rfl, reads.free_of_breaks c member⟩
  | nil =>
      have all : ∀ c ∈ chars, c = blank := by
        intro c member
        simpa using List.dropWhile_eq_nil_iff.mp found c member
      refine absurd ?_ named
      cases reads with
      | quoted inside after free =>
          have same := all quoteMark List.mem_cons_self
          rcases isBlank with rfl | rfl <;> cases same
      | bare _ free unquoted => rw [← cleaned, clean_name_of_blanks isBlank all]

end EdgePlacement.Table
