import EdgePlacement.Dataset.Records
import EdgePlacement.Proofs.Firsts
import EdgePlacement.Proofs.Placement.Placing
import EdgePlacement.Proofs.Resources

/-!
# Rows that are taken

Every row of a table is taken or counted. A row is taken as what its own cells make of it: rows of
data in the order of the table, services by the first row of each name, demands between known
services.
-/

namespace EdgePlacement

open EdgePlacement.Decimal

set_option autoImplicit false

/-! ## Counts -/

theorem taken_of_options {β : Type} (items : List (Option β)) :
    let taken := items.foldr Taken.ofOption Taken.empty
    taken.items = items.filterMap id ∧ taken.items.length + taken.skipped = items.length := by
  induction items with
  | nil => exact ⟨rfl, rfl⟩
  | cons item rest ih =>
      obtain ⟨items, count⟩ := ih
      cases item with
      | none =>
          refine ⟨items, ?_⟩
          simp only [List.foldr_cons, Taken.ofOption, Taken.pass, List.length_cons]
          omega
      | some item =>
          refine ⟨?_, ?_⟩
          · simp only [List.foldr_cons, Taken.ofOption, Taken.keep, items]
            rfl
          · simp only [List.foldr_cons, Taken.ofOption, Taken.keep, List.length_cons]
            omega

/-! ## Tables -/

section Rows

variable {α : Type} [Quantity α] [CellReading α]

/-- The row of data that a row of the table makes, if it is complete: the last columns are those of
the numbers. -/
def RowLayout.read? (layout : RowLayout) (table : TextTable) (row : List (Option String)) :
    Option (DataRow α) :=
  let textCount := table.columns.length - layout.numbers.length
  let columns := (List.range' textCount (table.columns.length - textCount)).map table.column
  DataRow.ofCells? (row.take textCount) (columns.zip (row.drop textCount))

theorem read_rows_account {fileName text : String} {layout : RowLayout} {rows : Taken (DataRow α)}
    (read : readRows fileName text layout = .ok rows) :
    ∃ table, readTable fileName text layout.columns = (.ok table : Except (Fault α) _) ∧
      rows.items = table.rows.filterMap (layout.read? table) ∧
      rows.items.length + rows.skipped = table.rows.length := by
  obtain ⟨table, found, taken⟩ := bind_returned read
  split_ifs at taken
  cases taken
  obtain ⟨items, count⟩ := taken_of_options (table.rows.map (layout.read? (α := α) table))
  refine ⟨table, found, ?_, ?_⟩
  · rw [List.filterMap_map] at items
    exact items
  · rw [List.length_map] at count
    exact count

/-! ## Cells -/

end Rows

/-! ## What rows make -/

theorem to_option_eq_some_iff {ε β : Type} {result : Except ε β} {item : β} :
    result.toOption = some item ↔ result = .ok item := by
  cases result <;> simp [Except.toOption]

section Records

variable {α : Type} [Quantity α] {row : DataRow α}

def Demand.read? (known : List String) (row : DataRow α) : Option (Demand α) :=
  (Demand.ofRow? known row).toOption.join

theorem demand_of_row {known : List String} {demand : Demand α}
    (read : Demand.read? known row = some demand) :
    row.identity = demand.source ∧ row.texts = [some demand.target] ∧
      row.numbers = [demand.bandwidth] ∧ demand.source ∈ known ∧ demand.target ∈ known ∧
      ¬ demand.bandwidth < 0 := by
  unfold Demand.read? Demand.ofRow? at read
  split at read
  · rename_i target bandwidth texts numbers
    split_ifs at read with joined
    · rw [Bool.and_eq_true, List.contains_iff_mem, List.contains_iff_mem] at joined
      unfold Demand.checked at read
      split_ifs at read with negative
      · cases read
      · cases read
        exact ⟨rfl, texts, numbers, joined.1, joined.2, negative⟩
    · cases read
  · cases read
  · cases read

end Records

/-! ## Services and demands -/

variable {α : Type} [Quantity α]

theorem take_services_account {taken : List String} {rows : List (DataRow α)}
    {services : Taken (Service α)} (returned : takeServices taken rows = .ok services) :
    services.items =
        firstOfEach Service.name taken (rows.filterMap fun row => (Service.ofRow row).toOption) ∧
      services.items.length + services.skipped = rows.length := by
  induction rows generalizing taken services with
  | nil =>
      cases returned
      exact ⟨rfl, rfl⟩
  | cons row rest ih =>
      have passed : ∀ {later : Except (Fault α) (Taken (Service α))},
          later.map Taken.pass = .ok services →
            ∃ before, later = .ok before ∧ services = before.pass := by
        intro later mapped
        cases later with
        | error fault => cases mapped
        | ok before => exact ⟨before, rfl, by cases mapped; rfl⟩
      rw [takeServices] at returned
      split at returned
      · rename_i service made
        split_ifs at returned with known
        · obtain ⟨before, ended, rfl⟩ := passed returned
          obtain ⟨items, count⟩ := ih ended
          refine ⟨?_, ?_⟩
          · simpa [Taken.pass, made, Except.toOption, firstOfEach, List.contains_iff_mem.mp known]
              using items
          · simp only [Taken.pass, List.length_cons]
            omega
        · cases ended : takeServices (service.name :: taken) rest with
          | error fault =>
              rw [ended] at returned
              cases returned
          | ok before =>
              rw [ended] at returned
              cases returned
              obtain ⟨items, count⟩ := ih ended
              have new : service.name ∉ taken := mt List.contains_iff_mem.mpr known
              refine ⟨?_, ?_⟩
              · simpa [Taken.keep, made, Except.toOption, firstOfEach, new] using items
              · simp only [Taken.keep, List.length_cons]
                omega
      · rename_i name refused
        obtain ⟨before, ended, rfl⟩ := passed returned
        obtain ⟨items, count⟩ := ih ended
        refine ⟨?_, ?_⟩
        · simpa [Taken.pass, refused, Except.toOption] using items
        · simp only [Taken.pass, List.length_cons]
          omega
      · cases returned

theorem take_demands_account {known : List String} {rows : List (DataRow α)}
    {demands : Taken (Demand α)} (returned : takeDemands known rows = .ok demands) :
    demands.items = rows.filterMap (Demand.read? known) ∧
      demands.items.length + demands.skipped = rows.length := by
  have options : demands = (rows.map (Demand.read? known)).foldr Taken.ofOption Taken.empty := by
    induction rows generalizing demands with
    | nil =>
        cases returned
        rfl
    | cons row rest ih =>
        obtain ⟨demand, made, onward⟩ := bind_returned returned
        obtain ⟨later, ended, result⟩ := bind_returned onward
        cases result
        simp [Demand.read?, made, Except.toOption, ih ended]
  subst options
  obtain ⟨items, count⟩ := taken_of_options (rows.map (Demand.read? known))
  refine ⟨?_, ?_⟩
  · rw [items, List.filterMap_map]
    rfl
  · rw [count, List.length_map]

end EdgePlacement
