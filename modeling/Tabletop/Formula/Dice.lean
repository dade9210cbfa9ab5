import Tabletop.Formula.Basic
import Tabletop.Number.Range
/-!
# Dice of formulas

How many dice a formula rolls, the same formula with more of them, and without its constants.
-/

namespace Tabletop

mutual

/-- Whether a die is rolled at any depth. -/
def Term.hasDice : Term → Bool
  | .dice _ => true
  | .group inner => Formula.hasDice inner
  | .call _ argument => Formula.hasDice argument
  | _ => false

def Formula.hasDice : List Term → Bool
  | [] => false
  | t :: ts => t.hasDice || Formula.hasDice ts

end

mutual

/-- The faces of the first dice term at any depth, in written order. -/
def Term.firstDieFaces? : Term → Option Nat
  | .dice d => some d.faces
  | .group inner => Formula.firstDieFaces? inner
  | .call _ argument => Formula.firstDieFaces? argument
  | _ => none

def Formula.firstDieFaces? : List Term → Option Nat
  | [] => none
  | t :: ts => t.firstDieFaces? <|> Formula.firstDieFaces? ts

end

mutual

/-- The number of dice at any depth. -/
def Term.diceCount : Term → Nat
  | .dice d => d.number
  | .group inner => Formula.diceCount inner
  | .call _ argument => Formula.diceCount argument
  | _ => 0

def Formula.diceCount : List Term → Nat
  | [] => 0
  | t :: ts => t.diceCount + Formula.diceCount ts

end

mutual

/-- Multiplies dice counts and then adds to them, and multiplies the constants too if `numeric` is
set. Counts and constants stop at their greatest and least values. Arguments of functions stay as
they are. -/
def Term.alter (multiply add : Nat) (numeric : Bool) : Term → Term
  | .dice d => .dice { d with number := min maxCount (min maxCount (d.number * multiply) + add) }
  | .number n =>
    .number (if numeric then clampInteger (n * multiply) else n)
  | .group inner => .group (Formula.alter multiply add numeric inner)
  | t => t

def Formula.alter (multiply add : Nat) (numeric : Bool) : List Term → List Term
  | [] => []
  | t :: ts => t.alter multiply add numeric :: Formula.alter multiply add numeric ts

end

/-- Whether the term is a constant or a variable. -/
def Term.isConstant : Term → Bool
  | .number _ => true
  | .variable _ => true
  | _ => false

/-- Whether the term is a plus or a minus. -/
def Term.isAdditive : Term → Bool
  | .operator .add => true
  | .operator .subtract => true
  | _ => false

/-- The formula without the constants and variables that follow a plus or a minus. A leading
constant stays. -/
def Formula.diceOnly : List Term → List Term
  | [] => []
  | [t] => [t]
  | t :: u :: ts =>
    if t.isAdditive && u.isConstant then Formula.diceOnly ts else t :: Formula.diceOnly (u :: ts)

end Tabletop
