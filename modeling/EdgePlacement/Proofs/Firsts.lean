import Mathlib.Data.List.Nodup

/-!
# The first entry of each key

Entries are read one after the other. Some cannot be read, and of those that can, only the first one
of each key is kept; the kept items stay in the order of their entries.
-/

namespace EdgePlacement

set_option autoImplicit false

variable {β κ : Type} [DecidableEq κ]

def firstOfEach (key : β → κ) (seen : List κ) : List β → List β
  | [] => []
  | item :: rest =>
    if key item ∈ seen then firstOfEach key seen rest
    else item :: firstOfEach key (key item :: seen) rest

variable {key : β → κ} {seen seen' : List κ}

theorem first_of_each_sublist (items : List β) : (firstOfEach key seen items).Sublist items := by
  induction items generalizing seen with
  | nil => exact List.Sublist.refl _
  | cons item rest ih =>
      rw [firstOfEach]
      split_ifs
      · exact ih.cons item
      · exact ih.cons_cons item

theorem first_of_each_congr (items : List β) (same : ∀ k, k ∈ seen ↔ k ∈ seen') :
    firstOfEach key seen items = firstOfEach key seen' items := by
  induction items generalizing seen seen' with
  | nil => rfl
  | cons item rest ih =>
      have sameNext : ∀ k, k ∈ key item :: seen ↔ k ∈ key item :: seen' := by
        intro k
        simp only [List.mem_cons, same k]
      simp only [firstOfEach, same (key item), ih same, ih sameNext]

theorem first_of_each_unseen {items : List β} {item : β}
    (member : item ∈ firstOfEach key seen items) : key item ∉ seen := by
  induction items generalizing seen with
  | nil => simp [firstOfEach] at member
  | cons next rest ih =>
      rw [firstOfEach] at member
      split_ifs at member with known
      · exact ih member
      · rcases List.mem_cons.mp member with rfl | later
        · exact known
        · exact fun known' => ih later (List.mem_cons_of_mem _ known')

theorem first_of_each_distinct (items : List β) :
    ((firstOfEach key seen items).map key).Nodup := by
  induction items generalizing seen with
  | nil => simp [firstOfEach]
  | cons item rest ih =>
      rw [firstOfEach]
      split_ifs
      · exact ih
      · rw [List.map_cons, List.nodup_cons]
        refine ⟨fun again => ?_, ih⟩
        obtain ⟨other, later, sameKey⟩ := List.mem_map.mp again
        exact first_of_each_unseen later (by simp [sameKey])

theorem first_of_each_first {items : List β} {item : β}
    (member : item ∈ firstOfEach key seen items) :
    ∃ before after, items = before ++ item :: after ∧ ∀ other ∈ before, key other ≠ key item := by
  induction items generalizing seen with
  | nil => simp [firstOfEach] at member
  | cons next rest ih =>
      have onward : ∀ {seen' : List κ}, item ∈ firstOfEach key seen' rest → key next ≠ key item →
          ∃ before after, next :: rest = before ++ item :: after ∧
            ∀ other ∈ before, key other ≠ key item := by
        intro seen' later differs
        obtain ⟨before, after, rfl, none⟩ := ih later
        exact ⟨next :: before, after, rfl, by simpa using ⟨differs, none⟩⟩
      have unseen := first_of_each_unseen member
      rw [firstOfEach] at member
      split_ifs at member with known
      · exact onward member fun same => unseen (same ▸ known)
      · rcases List.mem_cons.mp member with rfl | later
        · exact ⟨[], rest, rfl, by simp⟩
        · refine onward later fun same => ?_
          exact first_of_each_unseen later (by simp [same])

theorem first_of_each_complete {items : List β} {item : β} (member : item ∈ items) :
    key item ∈ seen ∨ ∃ kept ∈ firstOfEach key seen items, key kept = key item := by
  induction items generalizing seen with
  | nil => simp at member
  | cons next rest ih =>
      rw [firstOfEach]
      split_ifs with known
      · rcases List.mem_cons.mp member with rfl | later
        · exact Or.inl known
        · exact ih later
      · rcases List.mem_cons.mp member with rfl | later
        · exact Or.inr ⟨item, by simp, rfl⟩
        · have onward : key item ∈ key next :: seen ∨
              ∃ kept ∈ firstOfEach key (key next :: seen) rest, key kept = key item := ih later
          rcases onward with known' | ⟨kept, listed, sameKey⟩
          · rcases List.mem_cons.mp known' with same | before
            · exact Or.inr ⟨next, by simp, same.symm⟩
            · exact Or.inl before
          · exact Or.inr ⟨kept, List.mem_cons_of_mem _ listed, sameKey⟩

/-! ## Entries and what is kept of them -/

/-- The kept items are what the first readable entry of each key gives, in the order of the
entries. -/
structure KeepsFirsts {ρ : Type} (entries : List ρ) (read : ρ → Option β) (key : β → κ)
    (items : List β) : Prop where
  order : items.Sublist (entries.filterMap read)
  distinct : (items.map key).Nodup
  first : ∀ item ∈ items, ∃ before entry after, entries = before ++ entry :: after ∧
    read entry = some item ∧
    ∀ earlier ∈ before, ∀ other, read earlier = some other → key other ≠ key item
  complete : ∀ entry ∈ entries, ∀ item, read entry = some item →
    ∃ kept ∈ items, key kept = key item

theorem first_of_each_keeps_firsts {ρ : Type} (entries : List ρ) (read : ρ → Option β) :
    KeepsFirsts entries read key (firstOfEach key [] (entries.filterMap read)) := by
  constructor
  · exact first_of_each_sublist _
  · exact first_of_each_distinct _
  · intro item member
    obtain ⟨before, after, parts, none⟩ := first_of_each_first member
    obtain ⟨entriesBefore, onward, rfl, readBefore, readOnward⟩ :=
      List.filterMap_eq_append_iff.mp parts
    obtain ⟨unread, entry, entriesAfter, rfl, skipped, here, -⟩ :=
      List.filterMap_eq_cons_iff.mp readOnward
    refine ⟨entriesBefore ++ unread, entry, entriesAfter, by simp, here, ?_⟩
    intro earlier member' other found
    rcases List.mem_append.mp member' with left | right
    · exact none other (readBefore ▸ List.mem_filterMap.mpr ⟨earlier, left, found⟩)
    · rw [skipped earlier right] at found
      cases found
  · intro entry member item found
    have listed : item ∈ entries.filterMap read := List.mem_filterMap.mpr ⟨entry, member, found⟩
    have found' : key item ∈ ([] : List κ) ∨
        ∃ kept ∈ firstOfEach key [] (entries.filterMap read), key kept = key item :=
      first_of_each_complete listed
    exact found'.resolve_left List.not_mem_nil

omit [DecidableEq κ] in
/-- What is kept comes from some entry. -/
theorem KeepsFirsts.origin {ρ : Type} {entries : List ρ} {read : ρ → Option β} {items : List β}
    (keeps : KeepsFirsts entries read key items) {item : β} (member : item ∈ items) :
    ∃ entry ∈ entries, read entry = some item := by
  obtain ⟨before, entry, after, rfl, found, -⟩ := keeps.first item member
  exact ⟨entry, by simp, found⟩

end EdgePlacement
