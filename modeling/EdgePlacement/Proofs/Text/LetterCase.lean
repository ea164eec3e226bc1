import Mathlib.Data.List.Forall2
import Mathlib.Data.List.TakeWhile
import Mathlib.Tactic.SplitIfs
import EdgePlacement.Text.Blank
import EdgePlacement.Text.LetterCase

/-!
# Characters without letter case

Blanks and marks are their own lower-case forms, and no letter has one of them in its lower-case
form. So texts that differ in letter case only hold the same of them and have no blanks at their
ends at the same time; and marks within words may be left out before a text is brought to lower case
or afterwards.
-/

namespace EdgePlacement.Text

set_option autoImplicit false

/-! ## Single characters -/

theorem to_nat_of_nat (code : Nat) :
    (Char.ofNat code).toNat = code ∨ (Char.ofNat code).toNat = 0 := by
  by_cases valid : code.isValidChar
  · rw [Char.ofNat, dif_pos valid]
    exact .inl rfl
  · rw [Char.ofNat, dif_neg valid]
    exact .inr rfl

/-- The lower-case forms of a character, with what is known of its code in each case. -/
inductive LowerForm (c : Char) : List Char → Prop where
  | same : LowerForm c [c]
  | capital (isCapital : 0x41 ≤ c.toNat ∧ c.toNat ≤ 0x5a) :
      LowerForm c [Char.ofNat (c.toNat + 0x20)]
  | dotted (isDotted : c.toNat = 0x130) : LowerForm c [Char.ofNat 0x69, Char.ofNat 0x307]
  | sigma (isSigma : c.toNat = 0x3a3) (code : Nat) (isLower : code = 0x3c2 ∨ code = 0x3c3) :
      LowerForm c [Char.ofNat code]
  | listed (run : CaseRun) (member : run ∈ caseRuns)
      (covered : run.first ≤ c.toNat ∧ c.toNat ≤ run.last) :
      LowerForm c [Char.ofNat (Int.toNat (c.toNat + run.shift))]

theorem LowerForm.nonempty {c : Char} {lower : List Char} (form : LowerForm c lower) :
    lower ≠ [] := by
  cases form <;> exact List.cons_ne_nil _ _

theorem lower_letter_form (c : Char) : LowerForm c (lowerLetter c) := by
  unfold lowerLetter
  dsimp only
  split_ifs with ascii capital dotted
  · rw [Bool.and_eq_true, decide_eq_true_eq, decide_eq_true_eq] at capital
    exact .capital capital
  · exact .same
  · exact .dotted (beq_iff_eq.mp dotted)
  · split
    · rename_i run found
      have covers := List.find?_some found
      rw [CaseRun.covers, Bool.and_eq_true, Bool.and_eq_true, decide_eq_true_eq,
        decide_eq_true_eq] at covers
      exact .listed run (List.mem_of_find?_eq_some found) covers.1
    · exact .same

theorem lower_form_within (before after : List Char) (c : Char) :
    LowerForm c (if c.toNat == 0x3a3 then [lowerSigma before after] else lowerLetter c) := by
  split_ifs with isSigma
  · unfold lowerSigma
    split_ifs
    · exact .sigma (beq_iff_eq.mp isSigma) _ (.inl rfl)
    · exact .sigma (beq_iff_eq.mp isSigma) _ (.inr rfl)
  · exact lower_letter_form c

/-- Only the character itself has it in a lower-case form. -/
structure Caseless (c : Char) : Prop where
  own : ∀ lower, LowerForm c lower → lower = [c]
  alone : ∀ d lower, LowerForm d lower → c ∈ lower → d = c

def isCaselessCode (code : Nat) : Bool :=
  code != 0 && !(0x41 ≤ code && code ≤ 0x5a) && !(0x61 ≤ code && code ≤ 0x7a) &&
    code != 0x130 && code != 0x307 && code != 0x3a3 && code != 0x3c2 && code != 0x3c3 &&
    caseRuns.all fun run =>
      !(run.first ≤ code && code ≤ run.last) &&
        !(run.first + run.shift ≤ code && code ≤ run.last + run.shift)

theorem caseless_of_code {c : Char} (caseless : isCaselessCode c.toNat = true) : Caseless c := by
  simp only [isCaselessCode, Bool.and_eq_true, bne_iff_ne, ne_eq, Bool.not_eq_true',
    Bool.and_eq_false_iff, decide_eq_false_iff_not, List.all_eq_true] at caseless
  obtain ⟨⟨⟨⟨⟨⟨⟨⟨positive, noCapital⟩, noSmall⟩, noDotted⟩, noDot⟩, noSigma⟩, noFinal⟩, noOther⟩,
    noRun⟩ := caseless
  constructor
  · intro lower form
    cases form with
    | same => rfl
    | capital isCapital => omega
    | dotted isDotted => omega
    | sigma isSigma => omega
    | listed run member covered =>
        have apart := (noRun run member).1
        omega
  · intro d lower form member
    cases form with
    | same => exact (List.mem_singleton.mp member).symm
    | capital isCapital =>
        obtain rfl := List.mem_singleton.mp member
        have code := to_nat_of_nat (d.toNat + 0x20)
        omega
    | dotted isDotted =>
        have first := to_nat_of_nat 0x69
        have second := to_nat_of_nat 0x307
        rw [List.mem_cons, List.mem_singleton] at member
        rcases member with rfl | rfl <;> omega
    | sigma isSigma lowerCode isLower =>
        obtain rfl := List.mem_singleton.mp member
        have code := to_nat_of_nat lowerCode
        omega
    | listed run listed covered =>
        obtain rfl := List.mem_singleton.mp member
        have code := to_nat_of_nat (Int.toNat (d.toNat + run.shift))
        have apart := (noRun run listed).2
        omega

def blankCodes : List Nat :=
  List.range' 0x09 5 ++ List.range' 0x1c 5 ++ [0x85, 0xa0, 0x1680] ++ List.range' 0x2000 11 ++
    [0x2028, 0x2029, 0x202f, 0x205f, 0x3000]

theorem blank_is_caseless {c : Char} (blank : isBlank c = true) : Caseless c := by
  have listed : c.toNat ∈ blankCodes := by
    simp only [isBlank, Bool.or_eq_true, Bool.and_eq_true, decide_eq_true_eq, beq_iff_eq] at blank
    simp only [blankCodes, List.mem_append, List.mem_range'_1, List.mem_cons, List.not_mem_nil,
      or_false]
    omega
  have checked : ∀ code ∈ blankCodes, isCaselessCode code = true := by decide +kernel
  exact caseless_of_code (checked _ listed)

/-! ## Texts -/

theorem lower_from_forms (before s : List Char) : ∃ forms, List.Forall₂ LowerForm s forms ∧
    lowerFrom before s = forms.flatten := by
  induction s generalizing before with
  | nil => exact ⟨[], .nil, rfl⟩
  | cons c after ih =>
      obtain ⟨forms, ofAfter, joined⟩ := ih (c :: before)
      refine ⟨_, .cons (lower_form_within before after c) ofAfter, ?_⟩
      rw [lowerFrom, joined, List.flatten_cons]

theorem lower_case_nonempty {s : String} (some : s ≠ "") : lowerCase s ≠ "" := by
  rw [lowerCase, ne_eq, ← String.toList_eq_nil_iff, String.toList_ofList]
  cases chars : s.toList with
  | nil => exact absurd (String.toList_eq_nil_iff.mp chars) some
  | cons c after =>
      rw [lowerFrom, List.append_eq_nil_iff]
      exact fun empty => (lower_form_within [] after c).nonempty empty.1

theorem mem_lower_case_iff {c : Char} (caseless : Caseless c) (s : String) :
    c ∈ (lowerCase s).toList ↔ c ∈ s.toList := by
  obtain ⟨forms, ofText, joined⟩ := lower_from_forms [] s.toList
  rw [lowerCase, String.toList_ofList, joined]
  generalize s.toList = chars at ofText
  clear joined
  induction ofText with
  | nil => rfl
  | @cons d lower chars forms form _ ih =>
      have first : c ∈ lower ↔ c = d := by
        constructor
        · exact fun member => (caseless.alone d lower form member).symm
        · rintro rfl
          exact caseless.own lower form ▸ List.mem_singleton.mpr rfl
      rw [List.flatten_cons, List.mem_append, List.mem_cons, first, ih]

/-- What `p` is true of is kept, and the rest is replaced by what `p` is false of. -/
structure Replaces (p : Char → Bool) (c : Char) (piece : List Char) : Prop where
  kept : p c = true → piece = [c]
  apart : p c = false → piece ≠ [] ∧ ∀ d ∈ piece, p d = false

namespace Replaces

variable {p : Char → Bool}

theorem of_lower {c : Char} {lower : List Char} (caseless : ∀ c, p c = true → Caseless c)
    (form : LowerForm c lower) : Replaces p c lower where
  kept held := (caseless c held).own lower form
  apart free := by
    refine ⟨form.nonempty, fun d member => ?_⟩
    cases held : p d with
    | false => rfl
    | true =>
        obtain rfl := (caseless d held).alone c lower form member
        exact absurd (free.symm.trans held) Bool.false_ne_true

theorem reversed {c : Char} {piece : List Char} (replaces : Replaces p c piece) :
    Replaces p c piece.reverse where
  kept held := by rw [replaces.kept held, List.reverse_singleton]
  apart free := by
    obtain ⟨some, others⟩ := replaces.apart free
    exact ⟨mt List.reverse_eq_nil_iff.mp some,
      fun d member => others d (List.mem_reverse.mp member)⟩

/-- There is something to drop in front of both texts or of none. -/
theorem drop_while_iff {s : List Char} {pieces : List (List Char)}
    (replaces : List.Forall₂ (Replaces p) s pieces) :
    pieces.flatten.dropWhile p = pieces.flatten ↔ s.dropWhile p = s := by
  have shorter : ∀ (c : Char) (rest : List Char), rest.dropWhile p ≠ c :: rest := by
    intro c rest same
    have length := (List.dropWhile_suffix (l := rest) p).length_le
    rw [same, List.length_cons] at length
    omega
  cases replaces with
  | nil => exact Iff.rfl
  | @cons c piece s pieces first _ =>
      rw [List.flatten_cons]
      cases held : p c with
      | true =>
          rw [first.kept held, List.singleton_append, List.dropWhile_cons_of_pos held,
            List.dropWhile_cons_of_pos held]
          exact iff_of_false (shorter c _) (shorter c s)
      | false =>
          obtain ⟨some, others⟩ := first.apart held
          obtain ⟨d, more, rfl⟩ := List.exists_cons_of_ne_nil some
          have free := others d List.mem_cons_self
          rw [List.cons_append, List.dropWhile_cons_of_neg (Bool.eq_false_iff.mp free),
            List.dropWhile_cons_of_neg (Bool.eq_false_iff.mp held)]
          exact iff_of_true rfl rfl

end Replaces

theorem trim_eq_self_iff (s : String) : trim s = s ↔
    s.toList.dropWhile isBlank = s.toList ∧
      s.toList.reverse.dropWhile isBlank = s.toList.reverse := by
  have chars : trim s = s ↔ trimChars s.toList = s.toList := by
    rw [trim, ← String.toList_inj, String.toList_ofList]
  rw [chars]
  generalize s.toList = s
  unfold trimChars trimStartChars
  constructor
  · intro same
    have front : s.dropWhile isBlank = s := by
      have back := (List.dropWhile_suffix (l := (s.dropWhile isBlank).reverse) isBlank).length_le
      have lengths := congrArg List.length same
      rw [List.length_reverse] at back lengths
      exact (List.dropWhile_suffix isBlank).eq_of_length_le (by omega)
    rw [front] at same
    exact ⟨front, List.reverse_eq_iff.mp same⟩
  · rintro ⟨front, back⟩
    rw [front, back, List.reverse_reverse]

theorem trim_lower_case_iff (s : String) : trim (lowerCase s) = lowerCase s ↔ trim s = s := by
  obtain ⟨forms, ofText, joined⟩ := lower_from_forms [] s.toList
  have replaces : List.Forall₂ (Replaces isBlank) s.toList forms :=
    ofText.imp fun _ _ => Replaces.of_lower fun _ => blank_is_caseless
  have reversed : List.Forall₂ (Replaces isBlank) s.toList.reverse (forms.map .reverse).reverse :=
    List.forall₂_reverse_iff.mpr (List.forall₂_map_right_iff.mpr
      (replaces.imp fun _ _ => Replaces.reversed))
  have lower : (lowerCase s).toList = forms.flatten := by
    rw [lowerCase, String.toList_ofList, joined]
  have lowerReversed : (lowerCase s).toList.reverse = (forms.map .reverse).reverse.flatten := by
    rw [lower, List.reverse_flatten]
  rw [trim_eq_self_iff, trim_eq_self_iff, lowerReversed, lower, Replaces.drop_while_iff replaces,
    Replaces.drop_while_iff reversed]

/-! ## Marks within words -/

structure WordMark (c : Char) : Prop where
  caseless : Caseless c
  ignorable : isIgnorable c = true

variable {p : Char → Bool}

theorem meets_letter_filter (marks : ∀ c, p c = true → WordMark c) (chars : List Char) :
    meetsLetter (chars.filter fun c => !p c) = meetsLetter chars := by
  have passed : ∀ (c : Char) (rest : List Char), isIgnorable c = true →
      meetsLetter (c :: rest) = meetsLetter rest := by
    intro c rest ignorable
    rw [meetsLetter, List.dropWhile_cons_of_pos ignorable, meetsLetter]
  induction chars with
  | nil => rfl
  | cons c rest ih =>
      rw [List.filter_cons]
      cases held : p c with
      | true =>
          rw [passed c rest (marks c held).ignorable]
          exact ih
      | false =>
          change meetsLetter (c :: _) = _
          cases ignorable : isIgnorable c with
          | true => rw [passed c _ ignorable, passed c _ ignorable, ih]
          | false =>
              rw [meetsLetter, meetsLetter,
                List.dropWhile_cons_of_neg (Bool.eq_false_iff.mp ignorable),
                List.dropWhile_cons_of_neg (Bool.eq_false_iff.mp ignorable)]

theorem filter_lower_from (marks : ∀ c, p c = true → WordMark c) (before s : List Char) :
    (lowerFrom before s).filter (fun c => !p c) =
      lowerFrom (before.filter fun c => !p c) (s.filter fun c => !p c) := by
  -- A sigma looks back on what has been passed, so the induction is for all that may stand before.
  induction s generalizing before with
  | nil => rfl
  | cons c after ih =>
      have replaces : Replaces p c _ :=
        .of_lower (fun d held => (marks d held).caseless) (lower_form_within before after c)
      rw [lowerFrom, List.filter_append, ih, List.filter_cons, List.filter_cons]
      cases held : p c with
      | true =>
          rw [replaces.kept held]
          simp [held]
      | false =>
          have kept : ∀ d ∈ _, (!p d) = true := fun d member => by
            rw [(replaces.apart held).2 d member]
            rfl
          rw [List.filter_eq_self.mpr kept]
          change _ = lowerFrom _ (c :: _)
          rw [lowerFrom, lowerSigma, lowerSigma, meets_letter_filter marks,
            meets_letter_filter marks]
          rfl

end EdgePlacement.Text
