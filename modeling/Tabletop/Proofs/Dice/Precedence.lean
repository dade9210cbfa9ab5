import Tabletop.Proofs.Dice.Evaluation
import Tabletop.Proofs.Formula.RoundTrip
/-!
# Products before sums

The pass over the terms of a formula puts off every product until the next plus or minus, so it
multiplies and divides before it adds. Here the same is said without a pass: the terms are split
into products first, each product is evaluated from left to right, and then the products are added
up. Both do the same operations on doubles in the same order, and roll the dice in the same order.
-/

namespace Tabletop

/-- An operand behind the first one of a product. -/
inductive Factor (α : Type) where
  | times (operand : α)
  | over (divisor : α)

/-- Operands that are joined by `*` and `/`, as many as there are between two of the other
operators, and the sign before them. -/
structure Product (α : Type) where
  subtracted : Bool
  first : α
  factors : List (Factor α)

section

variable {σ : Type} [Roller σ]

/-- Multiplies and divides from left to right. A divisor that is zero is refused as soon as it is
known. -/
def multiplyOut (value : Double) : List (Factor (Rolling σ (Double × List DieOutcome))) →
    Rolling σ (Double × List DieOutcome)
  | [] => return (value, [])
  | .times operand :: factors => do
    let (other, dice) ← operand
    let (result, more) ← multiplyOut (value * other) factors
    return (result, dice ++ more)
  | .over divisor :: factors => do
    let (other, dice) ← divisor
    if other.isZero then throw .divisionByZero
    let (result, more) ← multiplyOut (value / other) factors
    return (result, dice ++ more)

def Product.evaluate (product : Product (Rolling σ (Double × List DieOutcome))) :
    Rolling σ (Double × List DieOutcome) := do
  let (value, dice) ← product.first
  let (result, more) ← multiplyOut value product.factors
  return (result, dice ++ more)

/-- Adds products from left to right, each with its sign. -/
def addUp (sum : Double) : List (Product (Rolling σ (Double × List DieOutcome))) →
    Rolling σ (Double × List DieOutcome)
  | [] => return (sum, [])
  | product :: products => do
    let (value, dice) ← product.evaluate
    let (result, more) ←
      addUp (sum + .finite (if product.subtracted then -1 else 1) * value) products
    return (result, dice ++ more)

mutual

/-- The value of an operand, products in it being evaluated before sums. -/
def Term.byPrecedence : Term → Rolling σ (Double × List DieOutcome)
  | .number n => return (.ofInt n, [])
  | .dice d => do
    let outcome ← d.roll
    return (.ofInt outcome.total, [outcome])
  | .group inner => addUp (.finite 0) (Formula.products inner)
  | .call function argument => do
    let (value, dice) ← addUp (.finite 0) (Formula.products argument)
    return (function.apply value, dice)
  | .variable _ => return (.finite 0, [])
  | .operator _ => throw .unexpectedEnd

/-- A formula as products. -/
def Formula.products : List Term → List (Product (Rolling σ (Double × List DieOutcome)))
  | [] => []
  | t :: ts =>
    let (factors, products) := Formula.split ts
    ⟨false, t.byPrecedence, factors⟩ :: products

/-- Terms behind an operand as the factors that go on with its product, and the products behind
that one. -/
def Formula.split : List Term → List (Factor (Rolling σ (Double × List DieOutcome))) ×
    List (Product (Rolling σ (Double × List DieOutcome)))
  | .operator .multiply :: t :: ts =>
    let (factors, products) := Formula.split ts
    (.times t.byPrecedence :: factors, products)
  | .operator .divide :: t :: ts =>
    let (factors, products) := Formula.split ts
    (.over t.byPrecedence :: factors, products)
  | .operator .add :: t :: ts =>
    let (factors, products) := Formula.split ts
    ([], ⟨false, t.byPrecedence, factors⟩ :: products)
  | .operator .subtract :: t :: ts =>
    let (factors, products) := Formula.split ts
    ([], ⟨true, t.byPrecedence, factors⟩ :: products)
  | _ => ([], [])

end

end

/-! ## Formulas that are put together as texts are -/

/-- What a term has to be, the terms in it aside, so that nothing but a division can fail. -/
def Term.Evaluable : Term → Prop
  | .dice d => d.number ≤ maxDice
  | .group inner => Formula.alternates inner = true
  | .call _ argument => Formula.alternates argument = true
  | _ => True

theorem Term.evaluable_of_sound {t : Term} (h : t.Sound) : t.Evaluable := by
  cases t with
  | dice d => exact h.1
  | group inner => exact h
  | call function argument => exact h
  | _ => trivial

theorem Term.ne_operator {t : Term} (h : t.isOperand = true) (op : Operator) :
    t ≠ .operator op := by
  rintro rfl
  cases h

namespace Formula

/-- Operands and operators alternate at every depth, and no term rolls more than the most dice. -/
structure Evaluable (f : Formula) : Prop where
  alternating : alternates f = true
  inside : ∀ t ∈ nested f, t.Evaluable

theorem evaluable_of_readAll {text : List Char} {f : Formula} (h : readAll text = .ok f) :
    Evaluable f := by
  obtain ⟨b, w, b', -, -, derived, -⟩ := isText_of_readAll h
  obtain ⟨alternating, sound⟩ := sound_of_isFormula derived
  exact ⟨alternating, fun t mem => Term.evaluable_of_sound (sound t mem).1⟩

end Formula

/-! ## The pass comes to the same -/

theorem liftM_ok {ε s α : Type} (a : α) :
    (liftM (Except.ok a : Except ε α) : ExceptT ε (StateM s) α) = pure a := rfl

section

variable {σ : Type} [Roller σ]

mutual

theorem Term.evaluate_eq_byPrecedence (t : Term) (h : ∀ u ∈ t.nested, u.Evaluable) :
    (t.evaluate : Rolling σ _) = t.byPrecedence := by
  match t with
  | .number n => rfl
  | .dice d => rfl
  | .variable path => rfl
  | .operator op => rfl
  | .group inner =>
    obtain ⟨alternating, deeper⟩ := List.forall_mem_cons.1 h
    exact Formula.evaluateFrom_start_eq inner ⟨alternating, deeper⟩
  | .call function argument =>
    obtain ⟨alternating, deeper⟩ := List.forall_mem_cons.1 h
    rw [Term.evaluate, Term.byPrecedence,
      Formula.evaluateFrom_start_eq argument ⟨alternating, deeper⟩]

/-- Evaluating in one pass is adding up the products. -/
theorem Formula.evaluateFrom_start_eq (f : List Term) (h : Formula.Evaluable f) :
    (Formula.evaluateFrom Partial.start f : Rolling σ _) =
      addUp (.finite 0) (Formula.products f) := by
  match f with
  | [] => cases h.alternating
  | t :: ts =>
    obtain ⟨operand, continuing⟩ := Bool.and_eq_true_iff.1 h.alternating
    obtain ⟨first, others⟩ := List.forall_mem_append.1 h.inside
    rw [Formula.evaluateFrom_operand (Term.ne_operator operand),
      t.evaluate_eq_byPrecedence first, Formula.products, addUp, Product.evaluate, bind_assoc]
    refine bind_congr fun (value, dice) => ?_
    have pushed : Partial.start.push value = .ok ⟨.finite 0, value, false, none⟩ := rfl
    simp only [pushed, liftM_ok, pure_bind, bind_assoc, List.append_assoc,
      Formula.evaluateFrom_eq_split ts continuing others]

/-- In the middle of a formula the product that is being built goes on for some factors, and then
the other products are added. The induction is on the pairs of an operator and an operand. -/
theorem Formula.evaluateFrom_eq_split (ts : List Term) (continuing : Formula.continues ts = true)
    (h : ∀ u ∈ Formula.nested ts, u.Evaluable) (sum product : Double) (subtracted : Bool) :
    (Formula.evaluateFrom ⟨sum, product, subtracted, none⟩ ts : Rolling σ _) = do
      let (value, dice) ← multiplyOut product (Formula.split ts).1
      let (result, more) ←
        addUp (sum + .finite (if subtracted then -1 else 1) * value) (Formula.split ts).2
      return (result, dice ++ more) := by
  match ts with
  | [] => rfl
  | .operator op :: t :: ts =>
    obtain ⟨operand, more⟩ := Bool.and_eq_true_iff.1 continuing
    obtain ⟨-, h⟩ := List.forall_mem_append.1 h
    obtain ⟨first, others⟩ := List.forall_mem_append.1 h
    have behind := Formula.evaluateFrom_eq_split ts more others
    change Formula.evaluateFrom ⟨sum, product, subtracted, some op⟩ (t :: ts) = _
    rw [Formula.evaluateFrom_operand (Term.ne_operator operand), t.evaluate_eq_byPrecedence first]
    cases op with
    | add | subtract =>
      -- the product has no more factors, so it is added to the sum before the next one begins
      simp only [Formula.split, multiplyOut, addUp, Product.evaluate, bind_assoc, pure_bind]
      refine bind_congr fun (value, dice) => ?_
      simp only [Partial.push, liftM_ok, behind, pure_bind, bind_assoc, List.append_assoc,
        List.nil_append, Partial.total]
    | multiply =>
      simp only [Formula.split, multiplyOut, bind_assoc]
      refine bind_congr fun (value, dice) => ?_
      simp only [Partial.push, liftM_ok, behind, pure_bind, bind_assoc, List.append_assoc]
    | divide =>
      simp only [Formula.split, multiplyOut, bind_assoc]
      refine bind_congr fun (value, dice) => ?_
      by_cases zero : value.isZero = true
      · -- both give up here, the dice of the divisor being rolled
        simp only [Partial.push, if_pos zero]
        rfl
      · simp only [Partial.push, if_neg zero, liftM_ok, behind, pure_bind, bind_assoc,
          List.append_assoc]

end

/-! ## What can fail -/

theorem Partial.error_of_push {p : Partial} {value : Double} {e : FormulaError}
    (h : p.push value = .error e) : e = .divisionByZero := by
  unfold Partial.push at h
  split at h
  · cases h
  · cases h
  · split at h
    · cases h
      rfl
    · cases h
  · cases h
  · cases h

mutual

theorem Term.error_of_evaluate (t : Term) (operand : ∀ op, t ≠ .operator op)
    (h : ∀ u ∈ t.nested, u.Evaluable) {s s' : σ} {e : FormulaError}
    (failed : perform t.evaluate s = (.error e, s')) : e = .divisionByZero := by
  match t with
  | .number n => cases failed
  | .variable path => cases failed
  | .dice d =>
    have few : ¬maxDice < d.number := Nat.not_lt.2 (h _ List.mem_cons_self)
    rw [Term.evaluate, DiceTerm.roll, if_neg few] at failed
    cases failed
  | .operator op => exact absurd rfl (operand op)
  | .group inner =>
    obtain ⟨-, deeper⟩ := List.forall_mem_cons.1 h
    exact Formula.error_of_evaluateFrom inner deeper failed
  | .call function argument =>
    obtain ⟨-, deeper⟩ := List.forall_mem_cons.1 h
    rcases perform_bind_error_iff.1 failed with failed | ⟨r, u, -, made⟩
    · exact Formula.error_of_evaluateFrom argument deeper failed
    · cases made

/-- Only a division can fail. -/
theorem Formula.error_of_evaluateFrom (ts : List Term) (h : ∀ u ∈ Formula.nested ts, u.Evaluable)
    {p : Partial} {s s' : σ} {e : FormulaError}
    (failed : perform (Formula.evaluateFrom p ts) s = (.error e, s')) : e = .divisionByZero := by
  match ts with
  | [] => cases failed
  | t :: ts =>
    obtain ⟨first, others⟩ := List.forall_mem_append.1 h
    rcases t.operator_or_operand with ⟨op, rfl⟩ | operand
    · exact Formula.error_of_evaluateFrom ts others (p := { p with pending := some op }) failed
    · rw [Formula.evaluateFrom_operand operand] at failed
      rcases perform_bind_error_iff.1 failed with failed | ⟨⟨value, dice⟩, u, -, failed⟩
      · exact t.error_of_evaluate operand first failed
      · rcases perform_bind_error_iff.1 failed with failed | ⟨q, u', -, failed⟩
        · rw [perform_lift] at failed
          exact Partial.error_of_push (congrArg Prod.fst failed)
        · rcases perform_bind_error_iff.1 failed with failed | ⟨r, u'', -, made⟩
          · exact Formula.error_of_evaluateFrom ts others failed
          · cases made

end

end

end Tabletop
