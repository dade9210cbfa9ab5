import Tabletop.Dice.Roller
import Tabletop.Dice.Outcome
import Tabletop.Formula.Substitution
import Tabletop.Number.Double
/-!
# Evaluation of formulas

A formula is evaluated in one pass over its terms, which keeps the sum of the finished products,
the product that is being built, and its sign. Dice are rolled when their term is reached. The
total is rounded down to an integer at the very end.
-/

namespace Tabletop

/-- A computation that rolls dice and can fail; the dice rolled before a failure stay rolled. -/
abbrev Rolling (σ : Type) := ExceptT FormulaError (StateM σ)

section

variable {σ : Type} [Roller σ]

/-- Rolls a number of equal dice. -/
def rollMany (faces : Nat) : (number : Nat) → σ → List DieResult × σ
  | 0, s => ([], s)
  | number + 1, s =>
    let (value, s) := Roller.roll faces s
    let (rest, s) := rollMany faces number s
    (⟨value, true⟩ :: rest, s)

/-- Every active die below the bound becomes inactive, and a new die is rolled right behind it. -/
def rerollBelow (faces bound : Nat) : List DieResult → σ → List DieResult × σ
  | [], s => ([], s)
  | die :: dice, s =>
    if die.active && die.value < bound then
      let (value, s) := Roller.roll faces s
      let (rest, s) := rerollBelow faces bound dice s
      (⟨die.value, false⟩ :: ⟨value, true⟩ :: rest, s)
    else
      let (rest, s) := rerollBelow faces bound dice s
      (die :: rest, s)

/-- The active dice with their places in the list, which starts at the given place. -/
def placedValues (place : Nat) : List DieResult → List (Nat × Nat)
  | [] => []
  | die :: dice =>
    if die.active then (place, die.value) :: placedValues (place + 1) dice
    else placedValues (place + 1) dice

/-- Makes the dice at the given places inactive. -/
def deactivate (places : List Nat) (place : Nat) : List DieResult → List DieResult
  | [] => []
  | die :: dice =>
    (if places.contains place then { die with active := false } else die) ::
      deactivate places (place + 1) dice

/-- Keeps the first dice in an order of values; of equal dice the earlier one comes first. -/
def keepFirst (before : Nat → Nat → Bool) (count : Nat) (dice : List DieResult) :
    List DieResult :=
  let ranked := (placedValues 0 dice).mergeSort fun a b =>
    before a.2 b.2 || (a.2 == b.2 && a.1 ≤ b.1)
  deactivate ((ranked.drop count).map (·.1)) 0 dice

/-- Raises the active dice to the least value. -/
def raiseTo (least : Nat) (dice : List DieResult) : List DieResult :=
  dice.map fun die => if die.active then { die with value := max least die.value } else die

def DieModifier.apply (faces : Nat) (dice : List DieResult) (s : σ) :
    DieModifier → List DieResult × σ
  | .rerollBelow bound => Tabletop.rerollBelow faces bound dice s
  | .keepHighest count => (keepFirst (fun a b => a > b) count dice, s)
  | .keepLowest count => (keepFirst (fun a b => a < b) count dice, s)
  | .minimum least => (raiseTo least dice, s)

/-- Applies modifiers in written order. -/
def applyModifiers (faces : Nat) : List DieModifier → List DieResult → σ → List DieResult × σ
  | [], dice, s => (dice, s)
  | m :: ms, dice, s =>
    let (dice, s) := m.apply faces dice s
    applyModifiers faces ms dice s

/-- Rolls the dice of a term, which must not be more than a term may have. -/
def DiceTerm.roll (d : DiceTerm) : Rolling σ DieOutcome := do
  if maxDice < d.number then throw (.invalidDice d.render)
  let s ← get
  let (dice, s) := rollMany d.faces d.number s
  let (dice, s) := applyModifiers d.faces d.modifiers dice s
  set s
  return ⟨d.faces, dice⟩

end

/-- What is known in the middle of a formula: the sum of the finished products, the product that is
being built, whether it is subtracted, and the operator before the next operand. -/
structure Partial where
  sum : Double
  product : Double
  subtracted : Bool
  pending : Option Operator

namespace Partial

def start : Partial := ⟨.finite 0, .finite 0, false, none⟩

/-- The sum with the product in it. -/
def total (p : Partial) : Double :=
  p.sum + (.finite (if p.subtracted then -1 else 1)) * p.product

/-- Takes in the next operand. An operand without an operator before it replaces the product. -/
def push (p : Partial) (value : Double) : Except FormulaError Partial :=
  match p.pending with
  | none => .ok { p with product := value }
  | some .multiply => .ok { p with product := p.product * value, pending := none }
  | some .divide =>
    if value.isZero then .error .divisionByZero
    else .ok { p with product := p.product / value, pending := none }
  | some .add => .ok ⟨p.total, value, false, none⟩
  | some .subtract => .ok ⟨p.total, value, true, none⟩

end Partial

def MathFunction.apply : MathFunction → Double → Double
  | floor => Double.floor
  | ceil => Double.ceil
  | round => Double.round
  | abs => Double.abs

section

variable {σ : Type} [Roller σ]

mutual

/-- The value of one operand, and the dice rolled for it. -/
def Term.evaluate : Term → Rolling σ (Double × List DieOutcome)
  | .number n => return (.ofInt n, [])
  | .dice d => do
    let outcome ← d.roll
    return (.ofInt outcome.total, [outcome])
  | .group inner => Formula.evaluateFrom Partial.start inner
  | .call function argument => do
    let (value, dice) ← Formula.evaluateFrom Partial.start argument
    return (function.apply value, dice)
  | .variable _ => return (.finite 0, [])
  | .operator _ => throw .unexpectedEnd

/-- The value of the terms behind those that `p` stands for. -/
def Formula.evaluateFrom (p : Partial) : List Term → Rolling σ (Double × List DieOutcome)
  | [] => return (p.total, [])
  | .operator op :: ts => Formula.evaluateFrom { p with pending := some op } ts
  | t :: ts => do
    let (value, dice) ← t.evaluate
    let p ← p.push value
    let (total, more) ← Formula.evaluateFrom p ts
    return (total, dice ++ more)

end

/-- Evaluates a formula with its variables replaced by what is bound to them. -/
def Formula.evaluate (f : Formula) (bindings : Bindings) : Rolling σ EvaluatedRoll := do
  let resolved ← Formula.substitute bindings f
  let (value, dice) ← Formula.evaluateFrom Partial.start resolved
  return ⟨Formula.render resolved, value.floor.toInteger, dice⟩

end

end Tabletop
