import Tabletop.Dice.Outcome
/-!
# Critical dice

A die is high if it shows at least a threshold, and low if it shows a one. Two high dice make a
roll critical.
-/

namespace Tabletop

/-- Which of high and low dice there are. -/
inductive CritType where
  | none
  | success
  | failure
  | mixed
deriving DecidableEq

/-- Which dice are looked at. -/
inductive DiceFilter where
  | all
  /-- Only dice with one of these numbers of faces. -/
  | faces (list : List Nat)
deriving DecidableEq

def DiceFilter.accepts : DiceFilter → Nat → Bool
  | all, _ => true
  | faces list, n => list.contains n

structure CritClassification where
  critType : CritType
  isCrit : Bool
  /-- The number of high dice. -/
  high : Nat
  /-- The number of low dice. -/
  low : Nat
deriving DecidableEq

namespace CritClassification

def ofCounts (high low : Nat) : CritClassification :=
  let critType :=
    if 0 < high then (if 0 < low then .mixed else .success)
    else if 0 < low then CritType.failure else .none
  ⟨critType, 2 ≤ high, high, low⟩

/-- Classifies dice of any number of rolls. Dice with one face, inactive dice and dice that the
filter leaves out do not take part. Without a threshold a die is high on its highest face; a high
die is not low. -/
def ofDice (dice : List DieOutcome) (threshold : Option Nat) (filter : DiceFilter) :
    CritClassification :=
  let counted := dice.filter fun d => 1 < d.faces && filter.accepts d.faces
  let isHigh (d : DieOutcome) (value : Nat) : Bool := threshold.getD d.faces ≤ value
  ofCounts (sumOf (counted.map fun d => d.activeValues.countP (isHigh d)))
    (sumOf (counted.map fun d => d.activeValues.countP fun v => !isHigh d v && v == 1))

end CritClassification

def EvaluatedRoll.classify (r : EvaluatedRoll) (threshold : Option Nat) (filter : DiceFilter) :
    CritClassification :=
  .ofDice r.dice threshold filter

end Tabletop
