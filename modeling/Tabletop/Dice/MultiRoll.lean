import Tabletop.Dice.Source
import Tabletop.Dice.Crit
import Tabletop.Formula.Dice
/-!
# Multiple rolls

The same formula rolled several times, of which all rolls, the highest or the lowest one count.
-/

namespace Tabletop

/-- Which of several rolls count. -/
inductive SelectionMode where
  | none
  | highest
  | lowest
deriving DecidableEq

namespace SelectionMode

/-- Advantages and disadvantages cancel each other. -/
def ofCounts (advantages disadvantages : Nat) : SelectionMode :=
  if disadvantages < advantages then highest
  else if advantages < disadvantages then lowest
  else none

/-- Whether a total is better than another one. -/
def better : SelectionMode → (candidate best : Int) → Bool
  | none, _, _ => false
  | highest, candidate, best => candidate > best
  | lowest, candidate, best => candidate < best

end SelectionMode

structure MultiRoll where
  formula : String
  /-- Texts that are added to the formula. -/
  terms : List String := []
  /-- The number of rolls; at least one is made. -/
  count : Nat := 1
  critThreshold : Option Nat := none
  selection : SelectionMode := .none
  /-- Whether a critical roll makes the whole action critical. -/
  triggersCrit : Bool := false

/-- One of several rolls. -/
structure MultiRollEntry where
  roll : EvaluatedRoll
  /-- Whether the selection dropped it. -/
  ignored : Bool
  classification : CritClassification
deriving DecidableEq

structure MultiRollOutcome where
  formula : String
  entries : List MultiRollEntry
  selection : SelectionMode
  critType : CritType
  isCrit : Bool
  triggersCrit : Bool
deriving DecidableEq

namespace MultiRollOutcome

/-- The rolls that were not dropped. -/
def chosen (o : MultiRollOutcome) : List MultiRollEntry := o.entries.filter (!·.ignored)

/-- The total of the first roll that was not dropped. -/
def total? (o : MultiRollOutcome) : Option Int := o.chosen.head?.map (·.roll.total)

def rolls (o : MultiRollOutcome) : List EvaluatedRoll := o.entries.map (·.roll)

/-- Whether the roll makes the whole action critical. -/
def flipsCrit (o : MultiRollOutcome) : Bool := o.triggersCrit && o.isCrit

end MultiRollOutcome

/-- The place of the best total behind one that is the best so far; the first one wins a tie. -/
def bestPlace (mode : SelectionMode) (best : Nat) (total : Int) (place : Nat) : List Int → Nat
  | [] => best
  | t :: ts =>
    if mode.better t total then bestPlace mode place t (place + 1) ts
    else bestPlace mode best total (place + 1) ts

/-- The place of the roll that is kept, if the mode keeps one only. -/
def selectedPlace? (mode : SelectionMode) : List Int → Option Nat
  | [] => none
  | t :: ts => if mode = .none then none else some (bestPlace mode 0 t 1 ts)

/-- The rolls with their classification, those marked that the selection drops. -/
def markEntries (chosen : Option Nat) (classify : EvaluatedRoll → CritClassification)
    (place : Nat) : List EvaluatedRoll → List MultiRollEntry
  | [] => []
  | r :: rs =>
    ⟨r, chosen.any (· != place), classify r⟩ :: markEntries chosen classify (place + 1) rs

/-- Evaluates a text several times. -/
def evaluateTimes {σ : Type} [RandomSource σ] (text : String) (bindings : Bindings) :
    Nat → Rolling σ (List EvaluatedRoll)
  | 0 => return []
  | n + 1 => do
    let roll ← RandomSource.evaluate text bindings
    return roll :: (← evaluateTimes text bindings n)

namespace MultiRoll

/-- The number of rolls that are made. -/
def rollCount (m : MultiRoll) : Nat := max 1 m.count

/-- The formula with all terms added. -/
def composed (m : MultiRoll) : String := Formula.compose (m.formula :: m.terms)

/-- The dice that are classified: those with as many faces as the first die of the formula. -/
def filterOf (f : Formula) : DiceFilter :=
  match Formula.firstDieFaces? f with
  | some faces => .faces [faces]
  | none => .all

/-- What the rolls that were made amount to. -/
def outcomeOf (m : MultiRoll) (filter : DiceFilter) (rolls : List EvaluatedRoll) :
    MultiRollOutcome :=
  let chosen := selectedPlace? m.selection (rolls.map (·.total))
  let entries := markEntries chosen (·.classify m.critThreshold filter) 0 rolls
  let pooled := CritClassification.ofDice
    ((entries.filter (!·.ignored)).flatMap (·.roll.dice)) m.critThreshold filter
  let formula := (rolls.head?.map (·.formula)).getD m.composed
  ⟨formula, entries, m.selection, pooled.critType, pooled.isCrit, m.triggersCrit⟩

/-- Makes all rolls, selects among them, and classifies what is left. -/
def resolve {σ : Type} [RandomSource σ] (m : MultiRoll) (bindings : Bindings) :
    Rolling σ MultiRollOutcome := do
  let filter := filterOf (← Formula.parse m.composed)
  let rolls ← evaluateTimes m.composed bindings m.rollCount
  return m.outcomeOf filter rolls

end MultiRoll

end Tabletop
