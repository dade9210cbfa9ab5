import Mathlib
import Tabletop.Proofs.Formula.Parsing
/-!
# Which formulas have a text

A formula that was read from any text is read from its canonical text too. Those are the formulas
that are put together as the grammar puts them together, at every depth.
-/

namespace Tabletop

open Formula (isPathChar)
open Grammar

def Term.isOperand : Term → Bool
  | .operator _ => false
  | _ => true

/-- Operators with an operand behind each. -/
def Formula.continues : List Term → Bool
  | [] => true
  | .operator _ :: t :: ts => t.isOperand && Formula.continues ts
  | _ => false

/-- Operands, at least one, with an operator between each two. -/
def Formula.alternates : List Term → Bool
  | [] => false
  | t :: ts => t.isOperand && Formula.continues ts

mutual

/-- The term and the terms in it at every depth. -/
def Term.nested : Term → List Term
  | .group inner => .group inner :: Formula.nested inner
  | .call function argument => .call function argument :: Formula.nested argument
  | t => [t]

def Formula.nested : List Term → List Term
  | [] => []
  | t :: ts => t.nested ++ Formula.nested ts

end

/-- What a term has to be, the terms in it aside, so that a text can stand for it. -/
def Term.Sound : Term → Prop
  | .dice d => d.number ≤ maxDice ∧ 0 < d.faces
  | .number n => n ≠ -maxConstant - 1
  | .variable path => path ≠ "" ∧ ∀ c ∈ path.toList, isPathChar c = true
  | .group inner => Formula.alternates inner = true
  | .call _ argument => Formula.alternates argument = true
  | .operator _ => True

def DieModifier.count : DieModifier → Nat
  | .rerollBelow n => n
  | .keepHighest n => n
  | .keepLowest n => n
  | .minimum n => n

/-- Counts have 32 bits and constants 64. -/
def Term.InRange : Term → Prop
  | .dice d => d.number ≤ maxCount ∧ d.faces ≤ maxCount ∧ ∀ m ∈ d.modifiers, m.count ≤ maxCount
  | .number n => isInteger64 n = true
  | _ => True

instance : ∀ t : Term, Decidable t.Sound
  | .dice _ => inferInstanceAs (Decidable (_ ∧ _))
  | .number _ => inferInstanceAs (Decidable (_ ≠ _))
  | .variable _ => inferInstanceAs (Decidable (_ ∧ ∀ _ ∈ _, _))
  | .group _ => inferInstanceAs (Decidable (_ = true))
  | .call _ _ => inferInstanceAs (Decidable (_ = true))
  | .operator _ => .isTrue trivial

instance : ∀ t : Term, Decidable t.InRange
  | .dice _ => inferInstanceAs (Decidable (_ ∧ _ ∧ ∀ _ ∈ _, _))
  | .number _ => inferInstanceAs (Decidable (_ = true))
  | .variable _ | .group _ | .call _ _ | .operator _ => .isTrue trivial

namespace Formula

/-- Operands and operators alternate at every depth, no constant is the least integer, no term rolls
more than the most dice or dice without faces, and paths are written with their characters. -/
def WellFormed (f : Formula) : Prop := alternates f = true ∧ ∀ t ∈ nested f, t.Sound

/-- All numbers are in their ranges at every depth. -/
def InRange (f : Formula) : Prop := ∀ t ∈ nested f, t.InRange

/-! ## Canonical texts are in the grammar -/

theorem numeral_countChars {limit count : Nat} (h : count ≤ limit) :
    Numeral limit (countChars count) count := by
  refine ⟨⟨Nat.toDigits_ne_nil, fun c mem => ?_⟩, Nat.ofDigitChars_ten_toDigits, h⟩
  exact Nat.isDigit_of_mem_toDigits (by decide) (by decide) mem

theorem keepCount_keepChars {count : Nat} (h : count ≤ maxCount) :
    KeepCount (keepChars count) count := by
  unfold keepChars
  by_cases one : count = 1
  · rw [if_pos one]
    exact Or.inl ⟨rfl, one⟩
  · rw [if_neg one]
    obtain ⟨digits, value, -⟩ := numeral_countChars h
    exact Or.inr ⟨digits, by rw [value, if_pos h]⟩

theorem isModifier_chars {m : DieModifier} (h : m.count ≤ maxCount) : IsModifier m.chars m := by
  cases m with
  | rerollBelow n => exact .rerollBelow (numeral_countChars h)
  | keepHighest n => exact .keepHighest (keepCount_keepChars h)
  | keepLowest n => exact .keepLowest (keepCount_keepChars h)
  | minimum n => exact .minimum (numeral_countChars h)

theorem areModifiers_chars {ms : List DieModifier} (h : ∀ m ∈ ms, m.count ≤ maxCount) :
    AreModifiers (ms.flatMap DieModifier.chars) ms := by
  induction ms with
  | nil => exact .nil
  | cons m ms ih =>
    obtain ⟨first, others⟩ := List.forall_mem_cons.1 h
    exact .cons (isModifier_chars first) (ih others)

theorem isPrimary_dice_chars {d : DiceTerm} (sound : (Term.dice d).Sound)
    (range : (Term.dice d).InRange) : IsPrimary d.chars (.dice d) := by
  obtain ⟨bound, positive⟩ := sound
  obtain ⟨-, faces, modifiers⟩ := range
  rw [DiceTerm.chars, List.append_assoc]
  exact .dice (Or.inr (numeral_countChars bound)) (Or.inl rfl) (numeral_countChars faces) positive
    (areModifiers_chars modifiers)

theorem isOperand_of_isPrimary {w : List Char} {t : Term} (h : IsPrimary w t) : IsOperand w t := by
  have unsigned := isOperand_of_signs (List.forall_mem_nil _) h
  rwa [List.nil_append, if_neg (by decide)] at unsigned

/-- The sign of a negative constant is read as a sign before the operand, so the constant itself has
to be in range, which the least integer is not. -/
theorem isOperand_integerChars {n : Int} (sound : (Term.number n).Sound)
    (range : (Term.number n).InRange) : IsOperand (integerChars n) (.number n) := by
  have bound : n.natAbs ≤ maxConstant := by
    simp only [Term.Sound, Term.InRange, isInteger64, Bool.and_eq_true, decide_eq_true_eq] at *
    omega
  have digits := IsPrimary.number (numeral_countChars bound)
  unfold integerChars
  by_cases negative : n < 0
  · rw [if_pos negative]
    have signs : Signs ['-'] := List.forall_mem_singleton.2 (Or.inr (Or.inr rfl))
    have signed := IsOperand.constant signs (by decide) digits
    rwa [Int.ofNat_natAbs_of_nonpos (Int.le_of_lt negative), Int.neg_neg] at signed
  · rw [if_neg negative]
    have unsigned := isOperand_of_isPrimary digits
    rwa [Int.natAbs_of_nonneg (Int.not_lt.1 negative)] at unsigned

theorem isOperand_blank_cons {w : List Char} {t : Term} (h : IsOperand w t) :
    IsOperand (' ' :: w) t := by
  have signs_cons {signs : List Char} (signed : Signs signs) : Signs (' ' :: signs) :=
    List.forall_mem_cons.2 ⟨Or.inl (by decide), signed⟩
  have negates_cons {signs : List Char} : Negates (' ' :: signs) ↔ Negates signs :=
    negates_cons_of_ne (by decide)
  cases h with
  | plain signed even primary =>
    exact .plain (signs_cons signed) (mt negates_cons.1 even) primary
  | constant signed odd primary =>
    exact .constant (signs_cons signed) (negates_cons.2 odd) primary
  | subtracted signed odd primary other =>
    exact .subtracted (signs_cons signed) (negates_cons.2 odd) primary other

mutual

theorem isOperand_chars (t : Term) (operand : t.isOperand = true)
    (sound : ∀ u ∈ t.nested, u.Sound ∧ u.InRange) : IsOperand t.chars t := by
  match t with
  | .dice d =>
    obtain ⟨sound, range⟩ := sound _ List.mem_cons_self
    exact isOperand_of_isPrimary (isPrimary_dice_chars sound range)
  | .number n =>
    obtain ⟨sound, range⟩ := sound _ List.mem_cons_self
    exact isOperand_integerChars sound range
  | .variable path =>
    obtain ⟨⟨written, chars⟩, -⟩ := sound _ List.mem_cons_self
    have primary := IsPrimary.path (mt String.toList_eq_nil_iff.1 written) chars
    rw [String.ofList_toList] at primary
    exact isOperand_of_isPrimary primary
  | .group inner =>
    obtain ⟨⟨alternating, -⟩, deeper⟩ := List.forall_mem_cons.1 sound
    have formula := isFormula_chars inner alternating deeper
    exact isOperand_of_isPrimary (.group formula (List.forall_mem_nil _))
  | .call function argument =>
    obtain ⟨⟨alternating, -⟩, deeper⟩ := List.forall_mem_cons.1 sound
    have formula := isFormula_chars argument alternating deeper
    have named : function.name.toList.map Char.toLower = function.name.toList := by
      cases function <;> rfl
    exact isOperand_of_isPrimary
      (.call named (List.forall_mem_nil _) formula (List.forall_mem_nil _))
  | .operator op => cases operand

theorem isFormula_chars (f : List Term) (alternating : alternates f = true)
    (sound : ∀ t ∈ nested f, t.Sound ∧ t.InRange) : IsFormula (Formula.chars f) f := by
  match f with
  | [] => cases alternating
  | t :: ts =>
    obtain ⟨operand, more⟩ := Bool.and_eq_true_iff.1 alternating
    obtain ⟨first, others⟩ := List.forall_mem_append.1 sound
    exact .intro (isOperand_chars t operand first) (isMore_chars ts more others)

theorem isMore_chars (ts : List Term) (continuing : continues ts = true)
    (sound : ∀ t ∈ nested ts, t.Sound ∧ t.InRange) : IsMore (Formula.chars ts) ts := by
  match ts with
  | [] => exact .nil
  | .operator op :: t :: ts =>
    obtain ⟨operand, more⟩ := Bool.and_eq_true_iff.1 continuing
    obtain ⟨-, sound⟩ := List.forall_mem_append.1 sound
    obtain ⟨first, others⟩ := List.forall_mem_append.1 sound
    -- the second blank of the operator is one of the signs of the operand behind it
    have blank : Blanks [' '] := List.forall_mem_singleton.2 (by decide)
    have operand := isOperand_blank_cons (isOperand_chars t operand first)
    have derived : IsMore ([' '] ++ op.symbol :: (' ' :: t.chars ++ Formula.chars ts)) _ :=
      .cons blank operand (isMore_chars ts more others)
    exact derived

end

/-! ## What the grammar denotes is well formed -/

theorem count_le_of_isModifier {w : List Char} {m : DieModifier} (h : IsModifier w m) :
    m.count ≤ maxCount := by
  have keeps {v : List Char} {n : Nat} (count : KeepCount v n) : n ≤ maxCount := by
    rcases count with ⟨-, rfl⟩ | ⟨-, rfl⟩
    · decide
    · split
      · next bound => exact bound
      · decide
  cases h with
  | rerollBelow count => exact count.bound
  | keepHighest count => exact keeps count
  | keepLowest count => exact keeps count
  | keep count => exact keeps count
  | minimum count => exact count.bound

theorem count_le_of_areModifiers {w : List Char} {ms : List DieModifier} (h : AreModifiers w ms) :
    ∀ m ∈ ms, m.count ≤ maxCount := by
  induction h with
  | nil => exact List.forall_mem_nil _
  | cons first _ ih => exact List.forall_mem_cons.2 ⟨count_le_of_isModifier first, ih⟩

theorem number_le_of_diceCount {w : List Char} {number : Nat} (h : DiceCount w number) :
    number ≤ maxDice := by
  rcases h with ⟨-, rfl⟩ | numeral
  · decide
  · exact numeral.bound

theorem sound_of_isPath {w : List Char} (written : w ≠ []) (chars : ∀ c ∈ w, isPathChar c = true) :
    (Term.variable (String.ofList w)).Sound := by
  refine ⟨fun empty => written ?_, ?_⟩
  · rw [← String.toList_ofList (l := w), empty]
    rfl
  · rwa [String.toList_ofList]

theorem sound_neg {n : Int} (h : (Term.number n).Sound ∧ (Term.number n).InRange) :
    (Term.number (-n)).Sound ∧ (Term.number (-n)).InRange := by
  simp only [Term.Sound, Term.InRange, isInteger64, Bool.and_eq_true, decide_eq_true_eq] at h ⊢
  omega

theorem sound_natCast {n : Nat} (h : n ≤ maxConstant) :
    (Term.number n).Sound ∧ (Term.number n).InRange := by
  simp only [Term.Sound, Term.InRange, isInteger64, Bool.and_eq_true, decide_eq_true_eq]
  omega

mutual

theorem sound_of_isFormula {w : List Char} {f : List Term} (h : IsFormula w f) :
    alternates f = true ∧ ∀ t ∈ nested f, t.Sound ∧ t.InRange := by
  match h with
  | .intro first more =>
    obtain ⟨operand, first⟩ := sound_of_isOperand first
    obtain ⟨continuing, others⟩ := sound_of_isMore more
    exact ⟨Bool.and_eq_true_iff.2 ⟨operand, continuing⟩, List.forall_mem_append.2 ⟨first, others⟩⟩

theorem sound_of_isMore {w : List Char} {ts : List Term} (h : IsMore w ts) :
    continues ts = true ∧ ∀ t ∈ nested ts, t.Sound ∧ t.InRange := by
  match h with
  | .nil => exact ⟨rfl, List.forall_mem_nil _⟩
  | .cons _ operand more =>
    obtain ⟨operand, first⟩ := sound_of_isOperand operand
    obtain ⟨continuing, others⟩ := sound_of_isMore more
    refine ⟨Bool.and_eq_true_iff.2 ⟨operand, continuing⟩, ?_⟩
    refine List.forall_mem_append.2 ⟨List.forall_mem_singleton.2 ⟨trivial, trivial⟩, ?_⟩
    exact List.forall_mem_append.2 ⟨first, others⟩

theorem sound_of_isOperand {w : List Char} {t : Term} (h : IsOperand w t) :
    t.isOperand = true ∧ ∀ u ∈ t.nested, u.Sound ∧ u.InRange := by
  match h with
  | .plain _ _ primary => exact sound_of_isPrimary primary
  | .constant _ _ primary =>
    obtain ⟨-, sound⟩ := sound_of_isPrimary primary
    exact ⟨rfl, List.forall_mem_singleton.2 (sound_neg (sound _ List.mem_cons_self))⟩
  | @IsOperand.subtracted _ _ t _ _ primary _ =>
    obtain ⟨operand, sound⟩ := sound_of_isPrimary primary
    have alternating : alternates [.number 0, .operator .subtract, t] = true := by
      rw [alternates, continues, continues, operand]
      rfl
    refine ⟨rfl, List.forall_mem_cons.2 ⟨⟨alternating, trivial⟩, ?_⟩⟩
    have zero := sound_natCast (Nat.zero_le maxConstant)
    refine List.forall_mem_append.2 ⟨List.forall_mem_singleton.2 zero, ?_⟩
    refine List.forall_mem_append.2 ⟨List.forall_mem_singleton.2 ⟨trivial, trivial⟩, ?_⟩
    exact List.forall_mem_append.2 ⟨sound, List.forall_mem_nil _⟩

theorem sound_of_isPrimary {w : List Char} {t : Term} (h : IsPrimary w t) :
    t.isOperand = true ∧ ∀ u ∈ t.nested, u.Sound ∧ u.InRange := by
  match h with
  | .number numeral => exact ⟨rfl, List.forall_mem_singleton.2 (sound_natCast numeral.bound)⟩
  | .dice counted _ sided positive modified =>
    have bound := number_le_of_diceCount counted
    refine ⟨rfl, List.forall_mem_singleton.2 ⟨⟨bound, positive⟩, ?_⟩⟩
    exact ⟨Nat.le_trans bound (by decide), sided.bound, count_le_of_areModifiers modified⟩
  | .path written chars =>
    exact ⟨rfl, List.forall_mem_singleton.2 ⟨sound_of_isPath written chars, trivial⟩⟩
  | .group inner _ =>
    obtain ⟨alternating, deeper⟩ := sound_of_isFormula inner
    exact ⟨rfl, List.forall_mem_cons.2 ⟨⟨alternating, trivial⟩, deeper⟩⟩
  | .call _ _ argument _ =>
    obtain ⟨alternating, deeper⟩ := sound_of_isFormula argument
    exact ⟨rfl, List.forall_mem_cons.2 ⟨⟨alternating, trivial⟩, deeper⟩⟩

end

/-- For every formula it is the same that some text is read as it, that its canonical text is, and
that it is well formed. That its numbers are in range is part of the last because formulas hold
unbounded numbers here. -/
theorem parse_render_tfae (f : Formula) :
    List.TFAE [∃ s, parse s = .ok f, parse (render f) = .ok f, WellFormed f ∧ InRange f] := by
  tfae_have 1 → 3 := by
    rintro ⟨s, read⟩
    obtain ⟨b, w, b', -, -, derived, -⟩ := isText_of_readAll read
    obtain ⟨alternating, sound⟩ := sound_of_isFormula derived
    exact ⟨⟨alternating, fun t mem => (sound t mem).1⟩, fun t mem => (sound t mem).2⟩
  tfae_have 3 → 2 := by
    rintro ⟨⟨alternating, sound⟩, range⟩
    have derived := isFormula_chars f alternating fun t mem => ⟨sound t mem, range t mem⟩
    have text : IsText (render f).toList f := by
      rw [render, String.toList_ofList]
      exact ⟨[], chars f, [], (List.append_nil _).symm, List.forall_mem_nil _, derived,
        List.forall_mem_nil _⟩
    exact readAll_of_isText text
  tfae_have 2 → 1 := fun read => ⟨render f, read⟩
  tfae_finish

end Formula

end Tabletop
