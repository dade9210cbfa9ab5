import Tabletop.Number.Range
/-!
# Outcomes of dice

What is recorded of a formula that was rolled: every die of every dice term, and the total.
-/

namespace Tabletop

/-- One die; it is inactive once it was rerolled or dropped. -/
structure DieResult where
  value : Nat
  active : Bool
deriving DecidableEq

/-- All dice that were rolled for one dice term. -/
structure DieOutcome where
  faces : Nat
  results : List DieResult
deriving DecidableEq

namespace DieOutcome

/-- The values that count. -/
def activeValues (d : DieOutcome) : List Nat := (d.results.filter (·.active)).map (·.value)

def total (d : DieOutcome) : Nat := sumOf d.activeValues

end DieOutcome

/-- One outcome of a formula. -/
structure EvaluatedRoll where
  /-- The text of the formula with its variables replaced. -/
  formula : String
  total : Int
  /-- One outcome per dice term, in the order of the formula. -/
  dice : List DieOutcome
deriving DecidableEq

namespace EvaluatedRoll

def hasDice (r : EvaluatedRoll) : Bool := !r.dice.isEmpty

/-- The number of single dice, rerolled and dropped ones included. -/
def dieCount (r : EvaluatedRoll) : Nat := sumOf (r.dice.map (·.results.length))

end EvaluatedRoll

end Tabletop
