import Mathlib.Data.List.Nodup
import EdgePlacement.OrderedMap

/-!
# Maps and what they are looked up with

What stands under a key is found by it, as long as keys do not repeat; a new key goes to the end.
-/

namespace EdgePlacement

set_option autoImplicit false

theorem find_by_key {β κ : Type} [DecidableEq κ] (key : β → κ) {entries : List β}
    (distinct : (entries.map key).Nodup) {entry : β} (member : entry ∈ entries) :
    (entries.find? fun other => key other = key entry) = some entry := by
  have present : (entries.find? fun other => key other = key entry).isSome := by
    rw [List.find?_isSome]
    exact ⟨entry, member, by simp⟩
  obtain ⟨other, found⟩ := Option.isSome_iff_exists.mp present
  have sameKey : key other = key entry := by simpa using List.find?_some found
  rw [found, List.inj_on_of_nodup_map distinct (List.mem_of_find?_eq_some found) member sameKey]

namespace OrderedMap

variable {κ ν : Type} [DecidableEq κ] {m : OrderedMap κ ν} {key : κ}

theorem get_eq_none_iff : m.get? key = none ↔ key ∉ m.keys := by
  simp only [get?, keys, Option.map_eq_none_iff, List.find?_eq_none, List.mem_map, not_exists,
    not_and, decide_eq_true_eq]

theorem get_is_some_iff : (m.get? key).isSome = true ↔ key ∈ m.keys := by
  rw [← not_iff_not, ← get_eq_none_iff]
  simp

theorem get_eq_lookup (m : OrderedMap κ ν) (key : κ) : m.get? key = m.entries.lookup key := by
  obtain ⟨entries⟩ := m
  unfold get?
  induction entries with
  | nil => rfl
  | cons entry rest ih =>
      obtain ⟨k, value⟩ := entry
      rw [List.find?_cons, List.lookup_cons]
      by_cases same : key = k
      · simp [same]
      · simp only [beq_false_of_ne same, Ne.symm same, decide_false]
        exact ih

theorem put_new (new : key ∉ m.keys) (value : ν) :
    m.put key value = ⟨m.entries ++ [(key, value)]⟩ := by
  obtain ⟨entries⟩ := m
  unfold put
  congr 1
  induction entries with
  | nil => rfl
  | cons entry rest ih =>
      simp only [keys, List.map_cons, List.mem_cons, not_or] at new
      rw [putEntry, if_neg (Ne.symm new.1), List.cons_append]
      congr 1
      exact ih new.2

theorem get_eq_some_iff {entries : List (κ × ν)}
    (distinct : (entries.map (·.1)).Nodup) (key : κ) (value : ν) :
    (⟨entries⟩ : OrderedMap κ ν).get? key = some value ↔ (key, value) ∈ entries := by
  unfold get?
  rw [Option.map_eq_some_iff]
  constructor
  · rintro ⟨⟨key', value'⟩, found, rfl⟩
    have same : key' = key := by simpa using List.find?_some found
    exact same ▸ List.mem_of_find?_eq_some found
  · intro member
    exact ⟨(key, value), find_by_key Prod.fst distinct member, rfl⟩

theorem values_by_keys (distinct : m.keys.Nodup) (default : ν) :
    m.values = m.keys.map fun key => (m.get? key).getD default := by
  rw [keys, List.map_map, values]
  apply List.map_congr_left
  intro entry member
  simp [get?, find_by_key Prod.fst distinct member]

end OrderedMap
end EdgePlacement
