import EdgePlacement.Proofs.Binary64.Nearness
import EdgePlacement.Summation

/-!
# Sums in any order

The entries of an array may be added up in any order and in any groups, and a product may be rounded
before it is added or only together with the sum. Where nothing is below zero, all of these results
are near the exact sum, and a result is no number only if a summand is none.
-/

namespace EdgePlacement

set_option autoImplicit false

inductive Summand where
  | word (value : Float)
  | product (share need : Float)

namespace Summand

def rounded : Summand → Float
  | word value => value
  | product share need => share * need

def isProduct : Summand → Bool
  | word _ => false
  | product _ _ => true

noncomputable def size : Summand → ENNReal
  | word value => Binary64.size value
  | product share need => Binary64.size share * Binary64.size need

/-- A number that is not below zero, and made of such numbers. -/
def IsUpper : Summand → Prop
  | word value => 0 ≤ value
  | product share need => 0 ≤ share ∧ 0 ≤ need ∧ (share * need).isNaN = false

end Summand

namespace Binary64

open Float.Model Float.Model.UnpackedFloat

/-- A product is added before anything is rounded. -/
def multiplyAdd (share need sum : Float) : Float :=
  match share.toModel.unpack, need.toModel.unpack, sum.toModel.unpack with
  | .finite sign mantissa exponent positive, .finite sign' mantissa' exponent' positive',
      .finite sign'' mantissa'' exponent'' positive'' =>
    ⟨Float.Model.pack (UnpackedFloat.add Format.binary64
      (.finite (sign * sign') (mantissa * mantissa') (exponent + exponent')
        (Nat.mul_pos positive positive'))
      (.finite sign'' mantissa'' exponent'' positive''))⟩
  | .finite .., .finite .., .infinity _ => sum
  | _, _, _ => share * need + sum

/-- The results that adding up may have. -/
inductive Accumulated : List Summand → Float → Prop where
  | nothing {zero : Float} (isZero : zero = 0 ∨ zero = -0.0) : Accumulated [] zero
  | rounded (summand : Summand) : Accumulated [summand] summand.rounded
  | added {left right : List Summand} {sum sum' : Float} (before : Accumulated left sum)
      (after : Accumulated right sum') : Accumulated (left ++ right) (sum + sum')
  | fused {summands : List Summand} {sum : Float} (share need : Float)
      (before : Accumulated summands sum) :
      Accumulated (.product share need :: summands) (multiplyAdd share need sum)
  | reordered {summands summands' : List Summand} {sum : Float} (order : summands.Perm summands')
      (before : Accumulated summands sum) : Accumulated summands' sum

/-! ## A single step -/

theorem size_of_zero {zero : Float} {sign : Sign} (isZero : zero.toModel.unpack = .zero sign) :
    size zero = 0 := by
  unfold size
  rw [isZero]
  rfl

theorem size_zero_add {zero : Float} {sign : Sign} (isZero : zero.toModel.unpack = .zero sign)
    (word : Float) : size (zero + word) = size word ∧ size (word + zero) = size word := by
  have stored := unpack_stored word.toModel
  change unpackedSize (Float.Model.pack (UnpackedFloat.add Format.binary64 zero.toModel.unpack
      word.toModel.unpack)).unpack = unpackedSize word.toModel.unpack ∧
    unpackedSize (Float.Model.pack (UnpackedFloat.add Format.binary64 word.toModel.unpack
      zero.toModel.unpack)).unpack = unpackedSize word.toModel.unpack
  rw [isZero]
  generalize word.toModel.unpack = unpacked at stored ⊢
  cases unpacked with
  | infinity sign' => simp [UnpackedFloat.add, unpack_pack_infinity]
  | notANumber => simp [UnpackedFloat.add, unpack_pack_not_a_number]
  | zero sign' =>
      cases sign <;> cases sign' <;> simp [UnpackedFloat.add, unpack_pack_zero, unpackedSize]
  | finite sign' mantissa exponent positive =>
      simp only [UnpackedFloat.add]
      rw [unpack_pack_stored _ stored]
      exact ⟨rfl, rfl⟩

theorem multiply_add_is_nan {share need sum : Float}
    (lost : (share * need).isNaN = true ∨ sum.isNaN = true) :
    (multiplyAdd share need sum).isNaN = true := by
  have contradiction : ∀ {sign sign' : Sign} {mantissa mantissa' : Nat} {exponent exponent' : Int}
      {positive : 0 < mantissa} {positive' : 0 < mantissa'},
      share.toModel.unpack = .finite sign mantissa exponent positive →
      need.toModel.unpack = .finite sign' mantissa' exponent' positive' →
      sum.toModel.unpack ≠ .notANumber → False := by
    intro _ _ _ _ _ _ _ _ isShare isNeed number
    have finite : share.isFinite = true := (congrArg UnpackedFloat.isFinite isShare).trans rfl
    have finite' : need.isFinite = true := (congrArg UnpackedFloat.isFinite isNeed).trans rfl
    rw [is_nan_iff, is_nan_iff] at lost
    exact lost.elim (fun lost => lost (mul_is_number finite finite')) fun lost => lost number
  unfold multiplyAdd
  split
  · rename_i isShare isNeed isSum
    exact (contradiction isShare isNeed (isSum ▸ nofun)).elim
  · rename_i isShare isNeed isSum
    exact (contradiction isShare isNeed (isSum ▸ nofun)).elim
  · exact add_is_nan lost

theorem near_multiply_add {share need sum : Float} (shareBound : 0 ≤ share) (needBound : 0 ≤ need)
    (number : IsNumber (share * need)) (sumBound : 0 ≤ sum) :
    0 ≤ multiplyAdd share need sum ∧
      Near 1 least (size share * size need + size sum) (size (multiplyAdd share need sum)) := by
  have product := zero_le_mul shareBound needBound number
  have upper := (upper_word_iff share).mp shareBound
  have upper' := (upper_word_iff need).mp needBound
  have upper'' := (upper_word_iff sum).mp sumBound
  have cases := mul_size_cases upper upper' number
  unfold multiplyAdd
  split
  case h_1 sign mantissa exponent positive sign' mantissa' exponent' positive' sign'' mantissa''
      exponent'' positive'' isShare isNeed isSum =>
    rw [isShare] at upper
    rw [isNeed] at upper'
    rw [isSum] at upper''
    cases upper
    cases upper'
    cases upper''
    have exact : size share * size need + size sum =
        ENNReal.ofReal (magnitude (mantissa * mantissa') (exponent + exponent')) +
          ENNReal.ofReal (magnitude mantissa'' exponent'') := by
      unfold size
      rw [isShare, isNeed, isSum]
      simp only [unpackedSize]
      rw [ofReal_magnitude_mul]
    rw [exact]
    refine ⟨(upper_word_iff _).mpr ?_, near_add_finite _ _ (Or.inr le_rfl)⟩
    exact add_finite_upper (Nat.mul_pos positive positive') positive''
  case h_2 isShare isNeed isSum =>
    refine ⟨sumBound, ?_⟩
    have infinite : size sum = ⊤ := by
      unfold size
      rw [isSum]
      rfl
    rw [infinite, add_top]
    exact (Near.refl _).weaken (Nat.zero_le 1) zero_le
  case h_3 notFinite notInfinite =>
    refine ⟨zero_le_add product sumBound, ?_⟩
    rcases cases with ⟨mantissa, exponent, positive, mantissa', exponent', positive', isShare,
      isNeed⟩ | exact
    · have isZero : ∃ sign, sum.toModel.unpack = .zero sign := by
        rcases unpacked : sum.toModel.unpack with
          sign | _ | sign | ⟨sign, mantissa'', exponent'', positive''⟩
        · exact (notInfinite _ _ _ _ _ _ _ _ _ isShare isNeed unpacked).elim
        · rw [unpacked] at upper''
          cases upper''
        · exact ⟨sign, rfl⟩
        · exact (notFinite _ _ _ _ _ _ _ _ _ _ _ _ isShare isNeed unpacked).elim
      obtain ⟨sign, isZero⟩ := isZero
      rw [(size_zero_add isZero _).2, size_of_zero isZero, add_zero]
      exact near_mul shareBound needBound number
    · have unrounded : size (share * need) = size share * size need := exact
      rw [← unrounded]
      exact (near_add product sumBound).weaken le_rfl zero_le

/-! ## All steps -/

theorem accumulated_is_nan {summands : List Summand} {sum : Float}
    (accumulated : Accumulated summands sum)
    (lost : ∃ summand ∈ summands, summand.rounded.isNaN = true) : sum.isNaN = true := by
  induction accumulated with
  | nothing isZero => simp at lost
  | rounded summand => simpa using lost
  | added before after ih ih' =>
      simp only [List.mem_append, or_and_right, exists_or] at lost
      exact add_is_nan (lost.imp ih ih')
  | fused share need before ih =>
      rw [List.exists_mem_cons_iff] at lost
      exact multiply_add_is_nan (lost.imp_right ih)
  | reordered order before ih =>
      obtain ⟨summand, member, lost⟩ := lost
      exact ih ⟨summand, order.mem_iff.mpr member, lost⟩

theorem unpack_of_zero {zero : Float} (isZero : zero = 0 ∨ zero = -0.0) :
    ∃ sign, zero.toModel.unpack = .zero sign := by
  rcases isZero with rfl | rfl
  · exact ⟨.positive, rfl⟩
  · exact ⟨.negative, rfl⟩

theorem zero_of_nothing {summands : List Summand} {sum : Float}
    (accumulated : Accumulated summands sum) (none : summands = []) :
    ∃ sign, sum.toModel.unpack = .zero sign := by
  induction accumulated with
  | nothing isZero => exact unpack_of_zero isZero
  | rounded summand => cases none
  | @added left right sum sum' before after ih ih' =>
      rw [List.append_eq_nil_iff] at none
      obtain ⟨sign, isZero⟩ := ih none.1
      obtain ⟨sign', isZero'⟩ := ih' none.2
      change ∃ sign, (Float.Model.pack (UnpackedFloat.add Format.binary64 sum.toModel.unpack
        sum'.toModel.unpack)).unpack = .zero sign
      rw [isZero, isZero']
      cases sign <;> cases sign' <;> exact ⟨_, unpack_pack_zero _⟩
  | fused share need before ih => cases none
  | reordered order before ih => exact ih (none ▸ order).eq_nil

/-- How much a sum may lose with products that are too small for the format. -/
noncomputable def productSlack (summands : List Summand) : ENNReal :=
  summands.countP Summand.isProduct * least

theorem near_rounded {summand : Summand} (upper : summand.IsUpper) :
    0 ≤ summand.rounded ∧
      Near 1 (productSlack [summand]) summand.size (Binary64.size summand.rounded) := by
  cases summand with
  | word value => exact ⟨upper, (Near.refl _).weaken (Nat.zero_le 1) zero_le⟩
  | product share need =>
      obtain ⟨shareBound, needBound, defined⟩ := upper
      have number := (is_number_iff _).mpr defined
      have slack : productSlack [.product share need] = least := by
        simp [productSlack, Summand.isProduct]
      rw [slack]
      exact ⟨zero_le_mul shareBound needBound number, near_mul shareBound needBound number⟩

theorem near_added {left right : List Summand} {sum sum' : Float}
    (before : Accumulated left sum) (after : Accumulated right sum') (above : 0 ≤ sum)
    (above' : 0 ≤ sum')
    (near : Near left.length (productSlack left) (left.map Summand.size).sum (size sum))
    (near' : Near right.length (productSlack right) (right.map Summand.size).sum (size sum')) :
    Near (left ++ right).length (productSlack (left ++ right))
      ((left ++ right).map Summand.size).sum (size (sum + sum')) := by
  have slack : productSlack (left ++ right) = productSlack left + productSlack right := by
    unfold productSlack
    rw [List.countP_append]
    push_cast
    ring
  rw [List.length_append, List.map_append, List.sum_append, slack]
  -- An addition to nothing is exact; with two others, it is one rounding more than either took.
  rcases Nat.eq_zero_or_pos left.length with none | some
  · obtain rfl := List.length_eq_zero_iff.mp none
    obtain ⟨sign, isZero⟩ := zero_of_nothing before rfl
    rw [(size_zero_add isZero sum').1]
    simpa [productSlack] using near'
  · rcases Nat.eq_zero_or_pos right.length with none' | some'
    · obtain rfl := List.length_eq_zero_iff.mp none'
      obtain ⟨sign, isZero⟩ := zero_of_nothing after rfl
      rw [(size_zero_add isZero sum).2]
      simpa [productSlack] using near
    · have joined := (near.weaken (Nat.le_max_left _ _) le_rfl).add
        (near'.weaken (Nat.le_max_right _ _) le_rfl)
      have rounded := joined.rounded (near_add above above') ENNReal.zero_ne_top
      rw [add_zero] at rounded
      exact rounded.weaken (by omega) le_rfl

theorem accumulated_near {summands : List Summand} {sum : Float}
    (accumulated : Accumulated summands sum) (upper : ∀ summand ∈ summands, summand.IsUpper) :
    0 ≤ sum ∧
      Near summands.length (productSlack summands) (summands.map Summand.size).sum (size sum) := by
  induction accumulated with
  | nothing isZero =>
      obtain ⟨sign, isZero⟩ := unpack_of_zero isZero
      refine ⟨(upper_word_iff _).mpr (isZero ▸ .zero sign), ?_⟩
      rw [size_of_zero isZero]
      exact (Near.refl 0).weaken le_rfl zero_le
  | rounded summand =>
      simpa using near_rounded (upper summand List.mem_cons_self)
  | added before after ih ih' =>
      obtain ⟨upperLeft, upperRight⟩ := List.forall_mem_append.mp upper
      obtain ⟨above, near⟩ := ih upperLeft
      obtain ⟨above', near'⟩ := ih' upperRight
      exact ⟨zero_le_add above above', near_added before after above above' near near'⟩
  | @fused summands sum share need before ih =>
      obtain ⟨⟨shareBound, needBound, defined⟩, upper⟩ := List.forall_mem_cons.mp upper
      obtain ⟨above, near⟩ := ih upper
      have number := (is_number_iff _).mpr defined
      obtain ⟨above', step⟩ := near_multiply_add shareBound needBound number above
      refine ⟨above', ?_⟩
      have started : Near summands.length (productSlack summands)
          (size share * size need + (summands.map Summand.size).sum)
          (size share * size need + size sum) := by
        have product := (Near.refl (size share * size need)).weaken
          (Nat.zero_le summands.length) le_rfl
        simpa using product.add near
      have slack : productSlack (.product share need :: summands) =
          productSlack summands + least := by
        simp only [productSlack, List.countP_cons, Summand.isProduct, if_true]
        push_cast
        ring
      rw [slack]
      exact started.rounded step least_finite
  | reordered order before ih =>
      obtain ⟨above, near⟩ := ih fun summand member => upper summand (order.mem_iff.mp member)
      refine ⟨above, ?_⟩
      rw [productSlack, ← order.length_eq, ← order.countP_eq, ← (order.map Summand.size).sum_eq]
      exact near

/-! ## The orders that the program runs with -/

theorem accumulated_fold {summands : List Summand} {start : Float}
    (started : Accumulated summands start) (more : List Summand) :
    Accumulated (summands ++ more) ((more.map Summand.rounded).foldl (· + ·) start) := by
  induction more generalizing summands start with
  | nil => simpa using started
  | cons summand rest ih =>
      have next := ih (.added started (.rounded summand))
      rwa [List.append_assoc, List.singleton_append] at next

theorem accumulated_total (summands : List Summand) :
    Accumulated summands (Quantity.total (summands.map Summand.rounded)) :=
  accumulated_fold (.nothing (Or.inl rfl)) summands

theorem rounded_words (values : List Float) :
    (values.map Summand.word).map Summand.rounded = values := by
  rw [List.map_map]
  exact List.map_id values

theorem accumulated_values (values : List Float) :
    Accumulated (values.map .word) (Quantity.total values) := by
  have total := accumulated_total (values.map .word)
  rwa [rounded_words] at total

def laneValues {α : Type} (absent : α) (values : List α) (groups place : Nat) : List α :=
  (List.range groups).map fun group => values.getD (8 * group + place) absent

theorem lane_values_succ {α : Type} (absent : α) (values : List α) (groups place : Nat) :
    laneValues absent values (groups + 1) place =
      laneValues absent values groups place ++ [values.getD (8 * groups + place) absent] := by
  unfold laneValues
  rw [List.range_succ, List.map_append, List.map_singleton]

theorem take_group {α : Type} (absent : α) (values : List α) (groups : Nat)
    (whole : 8 * (groups + 1) ≤ values.length) :
    values.take (8 * (groups + 1)) = values.take (8 * groups) ++
      (List.range 8).map fun place => values.getD (8 * groups + place) absent := by
  rw [Nat.mul_succ, List.take_add]
  congr 1
  apply List.ext_getElem
  · simp
    omega
  · intro place listed listed'
    have inside : 8 * groups + place < values.length := by
      simp at listed
      omega
    simp [List.getElem?_eq_getElem inside]

theorem lanes_perm {α : Type} (absent : α) (values : List α) (groups : Nat)
    (whole : 8 * groups ≤ values.length) :
    (((laneValues absent values groups 0 ++ laneValues absent values groups 1) ++
        (laneValues absent values groups 2 ++ laneValues absent values groups 3)) ++
      ((laneValues absent values groups 4 ++ laneValues absent values groups 5) ++
        (laneValues absent values groups 6 ++ laneValues absent values groups 7))).Perm
      (values.take (8 * groups)) := by
  classical
  induction groups with
  | zero => simp [laneValues]
  | succ groups ih =>
      have before := ih (by omega)
      have eight : (List.range 8).map (fun place => values.getD (8 * groups + place) absent) =
          [values.getD (8 * groups + 0) absent] ++ [values.getD (8 * groups + 1) absent] ++
            [values.getD (8 * groups + 2) absent] ++ [values.getD (8 * groups + 3) absent] ++
            [values.getD (8 * groups + 4) absent] ++ [values.getD (8 * groups + 5) absent] ++
            [values.getD (8 * groups + 6) absent] ++ [values.getD (8 * groups + 7) absent] := rfl
      rw [take_group absent values groups whole, eight]
      rw [List.perm_iff_count] at before ⊢
      intro value
      have counted := before value
      simp only [lane_values_succ, List.count_append] at counted ⊢
      omega

theorem accumulated_lanes (values : List Float) :
    Accumulated (values.map .word) (Summation.lanesTotal values) := by
  let groups := values.length / 8
  have lane : ∀ place, Accumulated ((laneValues 0 values groups place).map .word)
      (Summation.lane values place) := fun place => accumulated_values _
  have joined := Accumulated.added
    (.added (.added (lane 0) (lane 1)) (.added (lane 2) (lane 3)))
    (.added (.added (lane 4) (lane 5)) (.added (lane 6) (lane 7)))
  have total := accumulated_fold joined ((values.drop (8 * groups)).map .word)
  rw [rounded_words] at total
  refine .reordered ?_ total
  have lanes := lanes_perm 0 values groups (Nat.mul_div_le values.length 8)
  have whole := (lanes.append_right (values.drop (8 * groups))).map Summand.word
  rw [List.take_append_drop] at whole
  simpa only [List.map_append] using whole

theorem accumulated_halves (fuel : Nat) (values : List Float) :
    Accumulated (values.map .word) (Summation.halvedTotal fuel values) := by
  induction fuel generalizing values with
  | zero => exact accumulated_values values
  | succ fuel ih =>
      unfold Summation.halvedTotal
      dsimp only
      split_ifs
      · exact accumulated_values values
      · exact accumulated_lanes values
      · have joined := Accumulated.added (ih (values.take (8 * (values.length / 2 / 8))))
          (ih (values.drop (8 * (values.length / 2 / 8))))
        rwa [← List.map_append, List.take_append_drop] at joined

end Binary64

namespace Summation

open Binary64

def loadSummands (rows : List (List Float)) (needs : List (Resources Float)) (column : Nat)
    (d : Dimension) : List Summand :=
  (loadTerms rows needs column d).map fun (share, need) => .product share need

/-- Totals and loads are formed by additions in some order, with or without rounding the products
first. -/
structure InSomeOrder [Summation Float] : Prop where
  total : ∀ values, Accumulated (values.map .word) (Summation.total values)
  load : ∀ rows needs column d,
    Accumulated (loadSummands rows needs column d) (Summation.load rows needs column d)

theorem running_in_some_order : InSomeOrder where
  total values := accumulated_halves values.length values
  load rows needs column d := by
    have total := accumulated_total (loadSummands rows needs column d)
    unfold loadSummands at total ⊢
    rw [List.map_map] at total
    exact total

end Summation
end EdgePlacement
