/-!
# Quick rolls

What an item spends when it is used, and the two sets of flags that say what a quick roll of an
item shows and spends.
-/

namespace Tabletop

/-- What a run spends of an item. -/
structure ConsumptionRequest where
  useCharges : Bool := false
  useQuantity : Bool := false
  useRecharge : Bool := false
  useLinkedResource : Bool := false
deriving DecidableEq

def ConsumptionRequest.isEmpty (r : ConsumptionRequest) : Bool :=
  !(r.useCharges || r.useQuantity || r.useRecharge || r.useLinkedResource)

/-- The two quick rolls of an item. -/
inductive Preset where
  | primary
  | alternate
deriving DecidableEq

/-- What a quick roll shows and spends. -/
structure QuickRollFlags where
  flavor : Bool := false
  description : Bool := false
  attack : Bool := false
  check : Bool := false
  save : Bool := false
  /-- One flag per damage line. -/
  damage : List Bool := []
  /-- Whether the first damage line is versatile. -/
  versatile : Bool := false
  other : Bool := false
  properties : Bool := false
  consume : ConsumptionRequest := {}
  template : Bool := false
deriving DecidableEq

structure QuickRollPresets where
  primary : QuickRollFlags := {}
  alternate : QuickRollFlags := {}
  /-- A label per damage line. -/
  damageContext : List (Option String) := []
  otherContext : Option String := none
deriving DecidableEq

namespace QuickRollPresets

def flags (p : QuickRollPresets) : Preset → QuickRollFlags
  | .primary => p.primary
  | .alternate => p.alternate

/-- The label of a damage line, if it is not empty. -/
def damageContext? (p : QuickRollPresets) (index : Nat) : Option String :=
  (p.damageContext[index]?.join).filter (· ≠ "")

end QuickRollPresets

end Tabletop
