import EdgePlacement.Proofs.Binary64.Quotients
import EdgePlacement.Proofs.NodeInvariants
import EdgePlacement.Proofs.Resources

/-!
# Loads

The load of a node is a number as long as its usage is one and its capacity is finite. No operation
makes a usage that is no number, because nothing is reserved that cannot be compared with the
capacity, and what is released is never taken for more than nothing when it is no number.
-/

namespace EdgePlacement

open Binary64

set_option autoImplicit false

theorem largest_from_listed {α : Type} [Quantity α] (first : α) (rest : List α) :
    rest.foldl (fun best v => if best < v then v else best) first ∈ first :: rest := by
  induction rest generalizing first with
  | nil => exact List.mem_singleton.mpr rfl
  | cons next rest ih =>
      rw [List.foldl_cons]
      split_ifs
      · exact List.mem_cons_of_mem first (ih next)
      · rcases List.mem_cons.mp (ih first) with same | later
        · rw [same]
          exact List.mem_cons_self
        · exact List.mem_cons_of_mem first (List.mem_cons_of_mem next later)

structure Node.Measured (n : Node Float) : Prop where
  capacity : ∀ d, (n.capacity.get d).isFinite = true
  usage : ∀ d, (n.usage.get d).isNaN = false

namespace Node.Measured

variable {n : Node Float}

theorem capacity_is_number (measured : n.Measured) (d : Dimension) :
    IsNumber (n.capacity.get d) := by
  intro none
  have finite := measured.capacity d
  change (n.capacity.get d).toModel.unpack.isFinite = true at finite
  rw [none] at finite
  cases finite

theorem load_is_number (measured : n.Measured) : IsNumber n.load := by
  have ratios : ∀ ratio ∈ (Dimension.all.filter fun d => 0 < n.capacity.get d).map fun d =>
      n.usage.get d / n.capacity.get d, IsNumber ratio := by
    intro ratio listed
    obtain ⟨d, offered, rfl⟩ := List.mem_map.mp listed
    have positive : 0 < n.capacity.get d := of_decide_eq_true (List.mem_filter.mp offered).2
    have used := (is_number_iff _).mpr (measured.usage d)
    exact number_of_positive_divisor used positive (measured.capacity d)
  unfold Node.load
  generalize (Dimension.all.filter fun d => 0 < n.capacity.get d).map _ = values at ratios
  cases values with
  | nil => exact zero_is_number
  | cons first rest => exact ratios _ (largest_from_listed first rest)

theorem of_fresh {name : String} {capacity : Resources Float}
    (finite : ∀ d, (capacity.get d).isFinite = true) : (Node.fresh name capacity).Measured := by
  refine ⟨finite, fun d => ?_⟩
  change ((0 : Resources Float).get d).isNaN = false
  rw [Resources.get_zero, ← is_number_iff]
  exact zero_is_number

theorem of_fits {request capacity : Resources Float} (fits : request.fitsIn capacity 0 = true)
    (d : Dimension) : (request.get d).isNaN = false := by
  have bounds := (Resources.fits_in_iff request capacity 0).mp fits
  exact (is_number_iff _).mp ((le_iff _ _).mp (bounds d)).1

theorem of_floor (released : Resources Float) (d : Dimension) :
    (released.floorZero.get d).isNaN = false := by
  rw [← is_number_iff, Resources.get_floor_zero]
  unfold Quantity.positivePart
  split_ifs with positive
  · exact ((lt_iff _ _).mp positive).2.1
  · exact zero_is_number

/-- No operation leaves a usage that is no number, whatever it is asked for. -/
theorem kept :
    Node.KeptByOperations (fun _ : Service Float => True) (fun _ => True) Node.Measured where
  deploy n n' service _ measured fits := by
    rcases Node.deploy_cases fits with ⟨-, rfl⟩ | ⟨-, room, rfl⟩
    · exact measured
    · exact ⟨measured.capacity, of_fits room⟩
  undeploy n service _ measured := by
    unfold Node.undeploy
    split_ifs
    · exact ⟨measured.capacity, of_floor _⟩
    · exact measured
  reserve n n' needs _ measured fits := by
    unfold Node.reserve? at fits
    split_ifs at fits with room
    cases fits
    exact ⟨measured.capacity, of_fits room⟩
  release n needs _ measured := ⟨measured.capacity, of_floor _⟩
  reset n measured := of_fresh measured.capacity

end Node.Measured

/-- Finite capacities keep usages numbers: whatever operations are made on nodes whose usages are
numbers, their usages are numbers afterwards. -/
theorem usages_stay_numbers {t : Topology Float} (measured : t.EveryNode Node.Measured)
    (operations : List (Operation Float)) :
    (Operation.run operations t).EveryNode Node.Measured :=
  Node.Measured.kept.run operations (fun _ _ _ _ => trivial) (fun _ _ _ _ => trivial) measured

end EdgePlacement
