import Tabletop.Proofs.Dice.ExactValue
import Tabletop.Proofs.Dice.Likeness
import Tabletop.Proofs.Formula.Variables
import Tabletop.Proofs.Number.Representation
/-!
# Exact arithmetic

A formula has an exact value, computed with rational numbers. Doubles come to the same as long as
they can stand for every number that comes up on the way: no operation rounds then. As soon as one
of those numbers is not a double the total can be another one, even where the exact value is a small
integer.
-/

namespace Tabletop

section

variable {σ : Type} {admits : ℚ → Bool}

/-- The double stands for the exact value, and the dice are the same. -/
def SameExactly (x : Double × List DieOutcome) (y : ℚ × List DieOutcome) : Prop :=
  x.1.Represents y.1 ∧ x.2 = y.2

/-- An operand comes to the same with doubles. -/
abbrev OperandTracks (x : Rolling σ (Double × List DieOutcome))
    (y : Exactly σ (ℚ × List DieOutcome)) : Prop := Tracks .formula SameExactly x y

variable (doubles : ∀ q, admits q = true → Double.Fits q)
include doubles

theorem tracks_multiply {factors : List (Factor (Rolling σ (Double × List DieOutcome)))}
    {factors' : List (Factor (Exactly σ (ℚ × List DieOutcome)))}
    (h : List.Forall₂ (Factor.Rel OperandTracks) factors factors') {x : Double} {q : ℚ}
    (same : x.Represents q) :
    OperandTracks (multiplyOut x factors) (multiplyExactly admits q factors') := by
  induction h generalizing x q with
  | nil => exact .pure ⟨same, rfl⟩
  | cons factor _ ih =>
    cases factor with
    | multiplied operand =>
      refine operand.bind ?_
      rintro ⟨y, dice⟩ ⟨r, _⟩ ⟨other, rfl⟩
      refine .require fun admitted => (ih (same.mul other (doubles _ admitted))).bind ?_
      rintro ⟨z, more⟩ ⟨t, _⟩ ⟨result, rfl⟩
      exact .pure ⟨result, rfl⟩
    | divided divisor =>
      refine divisor.bind ?_
      rintro ⟨y, dice⟩ ⟨r, _⟩ ⟨other, rfl⟩
      by_cases zero : r = 0
      · simp only [if_pos zero, if_pos (other.isZero_iff.2 zero)]
        exact .throw FormulaError.divisionByZero
      · have nonzero : ¬y.isZero = true := fun h => zero (other.isZero_iff.1 h)
        simp only [if_neg zero, if_neg nonzero]
        refine .require fun admitted => (ih (same.div other zero (doubles _ admitted))).bind ?_
        rintro ⟨z, more⟩ ⟨t, _⟩ ⟨result, rfl⟩
        exact .pure ⟨result, rfl⟩

theorem tracks_add {products : List (Product (Rolling σ (Double × List DieOutcome)))}
    {products' : List (Product (Exactly σ (ℚ × List DieOutcome)))}
    (h : List.Forall₂ (Product.Rel OperandTracks) products products') {x : Double} {q : ℚ}
    (same : x.Represents q) :
    OperandTracks (addUp x products) (addExactly admits q products') := by
  induction h generalizing x q with
  | nil => exact .pure ⟨same, rfl⟩
  | @cons p p' _ _ product _ ih =>
    have value : OperandTracks p.evaluate (p'.exactly admits) := by
      refine product.first.bind ?_
      rintro ⟨y, dice⟩ ⟨r, _⟩ ⟨first, rfl⟩
      refine (tracks_multiply doubles product.factors first).bind ?_
      rintro ⟨z, more⟩ ⟨t, _⟩ ⟨result, rfl⟩
      exact .pure ⟨result, rfl⟩
    refine value.bind ?_
    rintro ⟨y, dice⟩ ⟨r, _⟩ ⟨term, rfl⟩
    refine .require fun admitted => ?_
    have sum := same.addSigned term p'.subtracted (doubles _ admitted)
    rw [← product.subtracted] at sum ⊢
    refine (ih sum).bind ?_
    rintro ⟨z, more⟩ ⟨t, _⟩ ⟨result, rfl⟩
    exact .pure ⟨result, rfl⟩

end

section

variable {σ : Type} {admits : ℚ → Bool}

theorem Double.Represents.apply {x : Double} {q : ℚ} (h : x.Represents q) (function : MathFunction)
    (fits : Double.Fits (function.exact q)) : (function.apply x).Represents (function.exact q) := by
  have rounded {round : ℚ → Int} : (Double.roundWith round (.finite q)).SameNumber
      (.finite (round q : ℚ)) := by
    rw [Double.roundWith]
    split
    · next zero =>
      rw [zero]
      exact .zeros (Double.isZero_zero _) rfl
    · exact .refl _
  refine ⟨(h.same.apply function).trans ?_, fits⟩
  cases function with
  | floor => exact rounded
  | ceil => exact rounded
  | round => exact rounded
  | abs =>
    have magnitude : (if q < 0 then -q else q) = |q| := by
      split
      · next negative => exact (abs_of_neg negative).symm
      · next nonneg => exact (abs_of_nonneg (not_lt.1 nonneg)).symm
    change (Double.finite (if q < 0 then -q else q)).SameNumber (.finite |q|)
    rw [magnitude]
    exact .refl _

theorem tracks_adapt {α : Type} (x : Rolling σ α) :
    Tracks ExactError.formula Eq x (ExceptT.adapt ExactError.formula x) := by
  intro s _
  have adapted : perform (ExceptT.adapt ExactError.formula x) s =
      ((perform x s).1.mapError ExactError.formula, (perform x s).2) := rfl
  rw [adapted]
  rcases perform x s with ⟨e | a, u⟩
  · exact ⟨.error e, rfl⟩
  · exact ⟨.ok rfl, rfl⟩

theorem tracks_constant (doubles : ∀ q, admits q = true → Double.Fits q) {n : Int}
    {dice : List DieOutcome} :
    OperandTracks (pure (.ofInt n, dice) : Rolling σ _)
      (do return (← require admits (n : ℚ), dice)) :=
  .require fun admitted => .pure ⟨.ofRat (doubles _ admitted), rfl⟩

variable [Roller σ]

mutual

/-- The value of an operand, its products being evaluated before its sums, is the exact one. -/
theorem Term.tracks_exactly (doubles : ∀ q, admits q = true → Double.Fits q) (t : Term) :
    OperandTracks (t.byPrecedence : Rolling σ _) (t.exactly admits) := by
  match t with
  | .number n => exact tracks_constant doubles
  | .variable path => exact .require fun _ => .pure ⟨⟨.refl _, Double.fits_zero⟩, rfl⟩
  | .operator op => exact .throw FormulaError.unexpectedEnd
  | .dice d =>
    refine (tracks_adapt d.roll).bind ?_
    rintro outcome _ rfl
    exact tracks_constant doubles
  | .group inner =>
    exact tracks_add doubles (Formula.tracks_exactProducts doubles inner)
      ⟨.refl _, Double.fits_zero⟩
  | .call function argument =>
    refine (tracks_add doubles (Formula.tracks_exactProducts doubles argument)
      ⟨.refl _, Double.fits_zero⟩).bind ?_
    rintro ⟨x, dice⟩ ⟨q, _⟩ ⟨value, rfl⟩
    exact .require fun admitted => .pure ⟨value.apply function (doubles _ admitted), rfl⟩

theorem Formula.tracks_exactProducts (doubles : ∀ q, admits q = true → Double.Fits q)
    (f : List Term) :
    List.Forall₂ (Product.Rel OperandTracks) (Formula.products f : List (Product (Rolling σ _)))
      (Formula.exactProducts admits f) := by
  match f with
  | [] => exact .nil
  | t :: ts =>
    obtain ⟨factors, products⟩ := Formula.tracks_exactSplit doubles ts
    exact .cons ⟨rfl, t.tracks_exactly doubles, factors⟩ products

theorem Formula.tracks_exactSplit (doubles : ∀ q, admits q = true → Double.Fits q)
    (ts : List Term) :
    List.Forall₂ (Factor.Rel OperandTracks) (Formula.split ts : _ × List (Product (Rolling σ _))).1
        (Formula.exactSplit admits ts).1 ∧
      List.Forall₂ (Product.Rel OperandTracks)
        (Formula.split ts : _ × List (Product (Rolling σ _))).2
        (Formula.exactSplit admits ts).2 := by
  match ts with
  | .operator op :: t :: ts =>
    obtain ⟨factors, products⟩ := Formula.tracks_exactSplit doubles ts
    cases op with
    | add => exact ⟨.nil, .cons ⟨rfl, t.tracks_exactly doubles, factors⟩ products⟩
    | subtract => exact ⟨.nil, .cons ⟨rfl, t.tracks_exactly doubles, factors⟩ products⟩
    | multiply => exact ⟨.cons (.multiplied (t.tracks_exactly doubles)) factors, products⟩
    | divide => exact ⟨.cons (.divided (t.tracks_exactly doubles)) factors, products⟩
  | [] => exact ⟨.nil, .nil⟩
  | [.operator op] => cases op <;> exact ⟨.nil, .nil⟩
  | .dice _ :: _ | .number _ :: _ | .variable _ :: _ | .group _ :: _ | .call _ _ :: _ =>
    exact ⟨.nil, .nil⟩

end

end

/-! ## Totals -/

namespace Formula

section

variable {σ : Type} [Roller σ] {f : Formula}

/-- The pass over the terms of a formula comes to its exact value. -/
theorem tracks_exactly (h : Evaluable f) :
    OperandTracks (evaluateFrom Partial.start f : Rolling σ _) (exactly Double.isDouble f) := by
  rw [evaluateFrom_start_eq f h]
  have doubles (q : ℚ) : Double.isDouble q = true → Double.Fits q := Double.isDouble_iff.1
  exact tracks_add doubles (tracks_exactProducts doubles f) ⟨.refl _, Double.fits_zero⟩

/-- A text that is read as a formula is rolled for the integer below the exact value of the formula,
with the dice that the exact evaluation rolls, if every number that comes up on the way to that
value is a double. Variables count as zero, none of them being bound. -/
theorem total_eq_floor_of_doubles {text : String} (parsed : parse text = .ok f) {b : Bindings}
    (unbound : ∀ path ∈ paths f, b.get? path = none) {s s' : σ} {value : ℚ}
    {dice : List DieOutcome}
    (exact : perform (exactly anyNumber f) s = (.ok (value, dice), s'))
    (doubles : (perform (exactly Double.isDouble f) s).1 ≠ .error .notAdmitted) :
    ∃ roll, perform (evaluate f b) s = (.ok roll, s') ∧ roll.dice = dice ∧
      roll.total = clampInteger value.floor := by
  obtain ⟨g, substituted⟩ := exists_substitute_empty f
  have resolved : substitute b f = .ok g := (substitute_congr f unbound).trans substituted
  rw [perform_evaluate_of_ok resolved, ← evaluateFrom_of_substitute_empty f substituted]
  obtain ⟨results, states⟩ := tracks_exactly (evaluable_of_readAll parsed) s doubles
  have refined : Refines (exactly anyNumber f : Exactly σ _) (exactly Double.isDouble f) :=
    refines_exactly (fun _ _ => rfl) f
  rw [← refined.perform_eq doubles, exact] at results states
  generalize perform (evaluateFrom Partial.start f) s = outcome at results states ⊢
  obtain ⟨r, u⟩ := outcome
  obtain rfl : u = s' := states
  cases results with
  | ok same =>
    obtain ⟨represents, rfl⟩ := same
    exact ⟨_, rfl, rfl, represents.toInteger_floor⟩

end

/-- Quotients and a rounded quotient that are doubles: `9 / 4 * 4 - 1 / 2` is rounded down. -/
theorem quarters_total_eq_floor :
    ∃ f roll, parse "(7 + 2) / 4 * floor(9 / 2) - 1 / 2" = .ok f ∧
      perform (exactly anyNumber f) (⟨[]⟩ : Script) = (.ok (17 / 2, []), ⟨[]⟩) ∧
      perform (evaluate f ∅) (⟨[]⟩ : Script) = (.ok roll, ⟨[]⟩) ∧ roll.dice = [] ∧
      roll.total = 8 := by
  have parsed : parse "(7 + 2) / 4 * floor(9 / 2) - 1 / 2" =
      .ok [.group [.number 7, .operator .add, .number 2], .operator .divide, .number 4,
        .operator .multiply, .call .floor [.number 9, .operator .divide, .number 2],
        .operator .subtract, .number 1, .operator .divide, .number 2] := by cbv
  have exact : perform (exactly anyNumber
      [.group [.number 7, .operator .add, .number 2], .operator .divide, .number 4,
        .operator .multiply, .call .floor [.number 9, .operator .divide, .number 2],
        .operator .subtract, .number 1, .operator .divide, .number 2]) (⟨[]⟩ : Script) =
      (.ok (17 / 2, []), ⟨[]⟩) := by decide +kernel
  obtain ⟨roll, rolled, dice, total⟩ := total_eq_floor_of_doubles parsed
    (fun path _ => NameMap.get?_empty path) exact (by decide +kernel)
  exact ⟨_, roll, parsed, exact, rolled, dice, total.trans (by decide +kernel)⟩

/-- A quotient and a constant that are not doubles: the multiple of the one falls short of its exact
value, and the other one is rounded. -/
theorem totals_ne_floor :
    (∃ f roll, parse "1 / 49 * 49" = .ok f ∧
      perform (exactly anyNumber f) (⟨[]⟩ : Script) = (.ok (1, []), ⟨[]⟩) ∧
      perform (evaluate f ∅) (⟨[]⟩ : Script) = (.ok roll, ⟨[]⟩) ∧ roll.total = 0) ∧
    ∃ f roll, parse "9007199254740993" = .ok f ∧
      perform (exactly anyNumber f) (⟨[]⟩ : Script) = (.ok (9007199254740993, []), ⟨[]⟩) ∧
      perform (evaluate f ∅) (⟨[]⟩ : Script) = (.ok roll, ⟨[]⟩) ∧
      roll.total = 9007199254740992 := by
  constructor
  · have parsed : parse "1 / 49 * 49" =
        .ok [.number 1, .operator .divide, .number 49, .operator .multiply, .number 49] := by cbv
    refine ⟨_, ⟨"1 / 49 * 49", 0, []⟩, parsed, by decide +kernel, ?_, rfl⟩
    rw [perform_evaluate_of_ok (by rfl)]
    decide +kernel
  · have parsed : parse "9007199254740993" = .ok [.number 9007199254740993] := by cbv
    refine ⟨_, ⟨"9007199254740993", 9007199254740992, []⟩, parsed, by decide +kernel, ?_, rfl⟩
    rw [perform_evaluate_of_ok (by rfl)]
    decide +kernel

end Formula

end Tabletop
