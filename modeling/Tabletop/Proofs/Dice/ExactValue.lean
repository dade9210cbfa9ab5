import Tabletop.Proofs.Dice.Precedence
/-!
# Exact values

A formula has an exact value, computed with rational numbers, products before sums. An evaluation
can be held to numbers of some kind: it fails as soon as a number comes up that is not admitted.
Other computations follow an exact one if they come to the same wherever it does not fail for that
reason; the steps of both are compared one by one.
-/

namespace Tabletop

/-! ## Exact evaluation -/

/-- Why an exact evaluation fails: a number that comes up is not admitted, or the formula itself
fails. -/
inductive ExactError where
  | notAdmitted
  | formula (e : FormulaError)
deriving DecidableEq

/-- A computation with exact numbers that rolls dice and can fail. -/
abbrev Exactly (σ : Type) := ExceptT ExactError (StateM σ)

def MathFunction.exact : MathFunction → ℚ → ℚ
  | floor, q => q.floor
  | ceil, q => q.ceil
  | round, q => Double.nearestAway q
  | abs, q => |q|

section

variable {σ : Type} [Roller σ] (admits : ℚ → Bool)

/-- A number that comes up; the evaluation goes on with it only if it is admitted. -/
def require (q : ℚ) : Exactly σ ℚ := if admits q = true then pure q else throw .notAdmitted

/-- Multiplies and divides from left to right. -/
def multiplyExactly (value : ℚ) : List (Factor (Exactly σ (ℚ × List DieOutcome))) →
    Exactly σ (ℚ × List DieOutcome)
  | [] => return (value, [])
  | .times operand :: factors => do
    let (other, dice) ← operand
    let value ← require admits (value * other)
    let (result, more) ← multiplyExactly value factors
    return (result, dice ++ more)
  | .over divisor :: factors => do
    let (other, dice) ← divisor
    if other = 0 then throw (.formula .divisionByZero)
    let value ← require admits (value / other)
    let (result, more) ← multiplyExactly value factors
    return (result, dice ++ more)

def Product.exactly (product : Product (Exactly σ (ℚ × List DieOutcome))) :
    Exactly σ (ℚ × List DieOutcome) := do
  let (value, dice) ← product.first
  let (result, more) ← multiplyExactly admits value product.factors
  return (result, dice ++ more)

/-- Adds products from left to right, each with its sign. -/
def addExactly (sum : ℚ) : List (Product (Exactly σ (ℚ × List DieOutcome))) →
    Exactly σ (ℚ × List DieOutcome)
  | [] => return (sum, [])
  | product :: products => do
    let (value, dice) ← product.exactly admits
    let sum ← require admits (if product.subtracted then sum - value else sum + value)
    let (result, more) ← addExactly sum products
    return (result, dice ++ more)

mutual

/-- The exact value of an operand. -/
def Term.exactly : Term → Exactly σ (ℚ × List DieOutcome)
  | .number n => do return (← require admits n, [])
  | .dice d => do
    let outcome ← ExceptT.adapt ExactError.formula d.roll
    return (← require admits outcome.total, [outcome])
  | .group inner => addExactly admits 0 (Formula.exactProducts inner)
  | .call function argument => do
    let (value, dice) ← addExactly admits 0 (Formula.exactProducts argument)
    return (← require admits (function.exact value), dice)
  | .variable _ => do return (← require admits 0, [])
  | .operator _ => throw (.formula .unexpectedEnd)

/-- A formula as products. -/
def Formula.exactProducts : List Term → List (Product (Exactly σ (ℚ × List DieOutcome)))
  | [] => []
  | t :: ts =>
    let (factors, products) := Formula.exactSplit ts
    ⟨false, t.exactly, factors⟩ :: products

/-- Terms behind an operand as the factors that go on with its product, and the products behind
that one. -/
def Formula.exactSplit : List Term → List (Factor (Exactly σ (ℚ × List DieOutcome))) ×
    List (Product (Exactly σ (ℚ × List DieOutcome)))
  | .operator .multiply :: t :: ts =>
    let (factors, products) := Formula.exactSplit ts
    (.times t.exactly :: factors, products)
  | .operator .divide :: t :: ts =>
    let (factors, products) := Formula.exactSplit ts
    (.over t.exactly :: factors, products)
  | .operator .add :: t :: ts =>
    let (factors, products) := Formula.exactSplit ts
    ([], ⟨false, t.exactly, factors⟩ :: products)
  | .operator .subtract :: t :: ts =>
    let (factors, products) := Formula.exactSplit ts
    ([], ⟨true, t.exactly, factors⟩ :: products)
  | _ => ([], [])

end

/-- The exact value of a formula, products before sums, and the dice that are rolled for it. -/
def Formula.exactly (f : Formula) : Exactly σ (ℚ × List DieOutcome) :=
  addExactly admits 0 (Formula.exactProducts admits f)

end

/-- The rule that admits all numbers, so that an exact evaluation fails only if the formula does. -/
def anyNumber : ℚ → Bool := fun _ => true

/-! ## Computations that track exact ones -/

/-- Both succeed with values that are related, or both fail with the same error of the formula. -/
inductive Matches {ε α β : Type} (embed : ε → ExactError) (R : α → β → Prop) :
    Except ε α → Except ExactError β → Prop
  | ok {a : α} {b : β} (h : R a b) : Matches embed R (.ok a) (.ok b)
  | error (e : ε) : Matches embed R (.error e) (.error (embed e))

/-- The first computation comes to the same as an exact one, wherever all numbers that come up in
that one are admitted. -/
def Tracks {ε σ α β : Type} (embed : ε → ExactError) (R : α → β → Prop)
    (x : ExceptT ε (StateM σ) α) (y : Exactly σ β) : Prop :=
  ∀ s, (perform y s).1 ≠ .error .notAdmitted →
    Matches embed R (perform x s).1 (perform y s).1 ∧ (perform x s).2 = (perform y s).2

namespace Tracks

variable {ε σ α β γ δ : Type} {embed : ε → ExactError} {R : α → β → Prop} {S : γ → δ → Prop}

theorem pure {a : α} {b : β} (h : R a b) :
    Tracks embed R (pure a : ExceptT ε (StateM σ) α) (pure b) :=
  fun _ _ => ⟨.ok h, rfl⟩

theorem throw (e : ε) :
    Tracks embed R (throw e : ExceptT ε (StateM σ) α) (throw (embed e)) :=
  fun _ _ => ⟨.error e, rfl⟩

theorem refl (x : Exactly σ α) : Tracks id Eq x x := by
  intro s _
  refine ⟨?_, rfl⟩
  cases (perform x s).1 with
  | ok a => exact .ok rfl
  | error e => exact .error e

theorem bind {x : ExceptT ε (StateM σ) α} {y : Exactly σ β} {f : α → ExceptT ε (StateM σ) γ}
    {g : β → Exactly σ δ} (h : Tracks embed R x y)
    (h' : ∀ a b, R a b → Tracks embed S (f a) (g b)) : Tracks embed S (x >>= f) (y >>= g) := by
  intro s admitted
  have first : (perform y s).1 ≠ .error .notAdmitted := by
    intro refused
    rw [perform_bind_of_error (Prod.ext refused rfl)] at admitted
    exact admitted rfl
  obtain ⟨results, states⟩ := h s first
  rw [perform_bind] at admitted
  rw [perform_bind, perform_bind]
  generalize perform x s = first, perform y s = second at results states admitted ⊢
  obtain ⟨x', u⟩ := first
  obtain ⟨y', u'⟩ := second
  obtain rfl : u = u' := states
  cases results with
  | ok related => exact h' _ _ related u admitted
  | error e => exact ⟨.error e, rfl⟩

theorem bind_left {x : ExceptT ε (StateM σ) α} {y : Exactly σ β} {f : α → ExceptT ε (StateM σ) γ}
    {T : γ → β → Prop} (h : Tracks embed R x y)
    (h' : ∀ a b, R a b → Tracks embed T (f a) (Pure.pure b)) : Tracks embed T (x >>= f) y := by
  rw [← bind_pure y]
  exact h.bind h'

/-- A number that comes up can be taken for admitted. -/
theorem require {admits : ℚ → Bool} {q : ℚ} {x : ExceptT ε (StateM σ) α} {g : ℚ → Exactly σ β}
    (h : admits q = true → Tracks embed R x (g q)) :
    Tracks embed R x (require admits q >>= g) := by
  unfold Tabletop.require
  by_cases admitted : admits q = true
  · rw [if_pos admitted, pure_bind]
    exact h admitted
  · rw [if_neg admitted]
    exact fun s reached => absurd rfl reached

end Tracks

/-- Factors with the same operator, and operands that are related. -/
inductive Factor.Rel {α β : Type} (R : α → β → Prop) : Factor α → Factor β → Prop
  | multiplied {a : α} {b : β} (h : R a b) : Rel R (.times a) (.times b)
  | divided {a : α} {b : β} (h : R a b) : Rel R (.over a) (.over b)

/-- Products with the same sign, and operands that are related one by one. -/
structure Product.Rel {α β : Type} (R : α → β → Prop) (p : Product α) (q : Product β) : Prop where
  subtracted : p.subtracted = q.subtracted
  first : R p.first q.first
  factors : List.Forall₂ (Factor.Rel R) p.factors q.factors

/-! ## Fewer numbers that are admitted -/

section

variable {σ : Type} {admits wider : ℚ → Bool}

/-- Where all numbers are admitted by a narrower rule the result is the same. -/
abbrev Refines {α : Type} (x y : Exactly σ α) : Prop := Tracks id Eq x y

/-- A computation and one that it refines perform alike where the numbers are admitted. -/
theorem Tracks.perform_eq {α : Type} {x y : Exactly σ α} (h : Refines x y) {s : σ}
    (admitted : (perform y s).1 ≠ .error .notAdmitted) : perform x s = perform y s := by
  obtain ⟨results, states⟩ := h s admitted
  refine Prod.ext ?_ states
  generalize (perform x s).1 = r, (perform y s).1 = r' at results ⊢
  cases results with
  | ok same => rw [same]
  | error e => rfl

theorem Tracks.require_wider {α : Type} {q : ℚ} {f g : ℚ → Exactly σ α}
    (wide : ∀ q, admits q = true → wider q = true) (h : Refines (f q) (g q)) :
    Refines (Tabletop.require wider q >>= f) (Tabletop.require admits q >>= g) := by
  refine .require fun admitted => ?_
  unfold Tabletop.require
  rw [if_pos (wide q admitted), pure_bind]
  exact h

theorem refines_multiply (wide : ∀ q, admits q = true → wider q = true)
    {factors factors' : List (Factor (Exactly σ (ℚ × List DieOutcome)))}
    (h : List.Forall₂ (Factor.Rel Refines) factors factors') (value : ℚ) :
    Refines (multiplyExactly wider value factors) (multiplyExactly admits value factors') := by
  induction h generalizing value with
  | nil => exact .pure rfl
  | cons factor _ ih =>
    cases factor with
    | multiplied operand =>
      refine operand.bind ?_
      rintro ⟨other, dice⟩ _ rfl
      refine .require_wider wide ((ih _).bind ?_)
      rintro result _ rfl
      exact .pure rfl
    | divided divisor =>
      refine divisor.bind ?_
      rintro ⟨other, dice⟩ _ rfl
      by_cases zero : other = 0
      · simp only [if_pos zero]
        exact .throw (ExactError.formula .divisionByZero)
      · simp only [if_neg zero]
        refine .require_wider wide ((ih _).bind ?_)
        rintro result _ rfl
        exact .pure rfl

theorem refines_add (wide : ∀ q, admits q = true → wider q = true)
    {products products' : List (Product (Exactly σ (ℚ × List DieOutcome)))}
    (h : List.Forall₂ (Product.Rel Refines) products products') (sum : ℚ) :
    Refines (addExactly wider sum products) (addExactly admits sum products') := by
  induction h generalizing sum with
  | nil => exact .pure rfl
  | @cons p p' _ _ product _ ih =>
    have value : Refines (p.exactly wider) (p'.exactly admits) := by
      refine product.first.bind ?_
      rintro ⟨first, dice⟩ _ rfl
      refine (refines_multiply wide product.factors first).bind ?_
      rintro result _ rfl
      exact .pure rfl
    refine value.bind ?_
    rintro ⟨term, dice⟩ _ rfl
    rw [product.subtracted]
    refine .require_wider wide ((ih _).bind ?_)
    rintro result _ rfl
    exact .pure rfl

variable [Roller σ]

mutual

theorem Term.refines_exactly (wide : ∀ q, admits q = true → wider q = true) (t : Term) :
    Refines (t.exactly wider : Exactly σ _) (t.exactly admits) := by
  match t with
  | .number n => exact .require_wider wide (.pure rfl)
  | .variable path => exact .require_wider wide (.pure rfl)
  | .operator op => exact .throw (ExactError.formula .unexpectedEnd)
  | .dice d =>
    have same : Refines (ExceptT.adapt ExactError.formula d.roll : Exactly σ _)
        (ExceptT.adapt ExactError.formula d.roll) := .refl _
    refine same.bind ?_
    rintro outcome _ rfl
    exact .require_wider wide (.pure rfl)
  | .group inner => exact refines_add wide (Formula.refines_exactProducts wide inner) 0
  | .call function argument =>
    refine (refines_add wide (Formula.refines_exactProducts wide argument) 0).bind ?_
    rintro ⟨value, dice⟩ _ rfl
    exact .require_wider wide (.pure rfl)

theorem Formula.refines_exactProducts (wide : ∀ q, admits q = true → wider q = true)
    (f : List Term) :
    List.Forall₂ (Product.Rel Refines) (Formula.exactProducts wider f)
      (Formula.exactProducts admits f : List (Product (Exactly σ _))) := by
  match f with
  | [] => exact .nil
  | t :: ts =>
    obtain ⟨factors, products⟩ := Formula.refines_exactSplit wide ts
    exact .cons ⟨rfl, t.refines_exactly wide, factors⟩ products

theorem Formula.refines_exactSplit (wide : ∀ q, admits q = true → wider q = true)
    (ts : List Term) :
    List.Forall₂ (Factor.Rel Refines) (Formula.exactSplit wider ts).1
        (Formula.exactSplit admits ts : _ × List (Product (Exactly σ _))).1 ∧
      List.Forall₂ (Product.Rel Refines) (Formula.exactSplit wider ts).2
        (Formula.exactSplit admits ts : _ × List (Product (Exactly σ _))).2 := by
  match ts with
  | .operator op :: t :: ts =>
    obtain ⟨factors, products⟩ := Formula.refines_exactSplit wide ts
    cases op with
    | add => exact ⟨.nil, .cons ⟨rfl, t.refines_exactly wide, factors⟩ products⟩
    | subtract => exact ⟨.nil, .cons ⟨rfl, t.refines_exactly wide, factors⟩ products⟩
    | multiply => exact ⟨.cons (.multiplied (t.refines_exactly wide)) factors, products⟩
    | divide => exact ⟨.cons (.divided (t.refines_exactly wide)) factors, products⟩
  | [] => exact ⟨.nil, .nil⟩
  | [.operator op] => cases op <;> exact ⟨.nil, .nil⟩
  | .dice _ :: _ | .number _ :: _ | .variable _ :: _ | .group _ :: _ | .call _ _ :: _ =>
    exact ⟨.nil, .nil⟩

end

/-- With fewer numbers admitted, an exact evaluation comes to the same or fails for that. -/
theorem Formula.refines_exactly (wide : ∀ q, admits q = true → wider q = true) (f : Formula) :
    Refines (f.exactly wider : Exactly σ _) (f.exactly admits) :=
  refines_add wide (Formula.refines_exactProducts wide f) 0

end

end Tabletop
