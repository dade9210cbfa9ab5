import Tabletop.Dice.MultiRoll
import Tabletop.Run.Labels
import Tabletop.Sheet.Ability
/-!
# Results of runs

Everything that one run brought about, in the order of its requests.
-/

namespace Tabletop

/-- How the consumption of an item ended. -/
inductive ConsumeOutcome where
  | success
  /-- The last one was used up, and the item is removed. -/
  | destroy
deriving DecidableEq

/-- Rolls of a d20 or the like, with their title. -/
structure RollEntry where
  title : Option String
  outcome : MultiRollOutcome
deriving DecidableEq

/-- Damage, with critical dice if there are any. -/
structure DamageEntry where
  labels : DamageLabels
  damageType : Option DamageType
  versatile : Bool
  base : EvaluatedRoll
  crit : Option EvaluatedRoll
  /-- The label of the critical dice. -/
  critLabel : Option String
  /-- The total of the base roll if every die shows its highest face. -/
  maxBase : Int
  /-- The total of the critical roll if every die shows its highest face. -/
  maxCrit : Option Int
deriving DecidableEq

/-- The base total and the critical total. -/
def DamageEntry.total (e : DamageEntry) : Int := e.base.total + (e.crit.elim 0 (·.total))

structure SaveDcEntry where
  ability : Ability
  dc : Nat
  /-- Whether the number is hidden from the players. -/
  hidden : Bool
deriving DecidableEq

inductive ResultEntry where
  | attack (roll : RollEntry)
  | check (roll : RollEntry)
  | custom (roll : RollEntry)
  | damage (damage : DamageEntry)
  | other (damage : DamageEntry)
  | saveDc (save : SaveDcEntry)
  | text (text : String)
  | flavor (text : String)
deriving DecidableEq

structure CompositeResult where
  itemId : String
  itemName : String
  title : String
  /-- The level of a spell that was cast at another level than its own. -/
  slotLevel : Option Nat
  isCrit : Bool
  entries : List ResultEntry
  properties : List String
  /-- All rolls, in the order in which they were made. -/
  dicePool : List EvaluatedRoll
  consumption : ConsumeOutcome
deriving DecidableEq

namespace CompositeResult

/-- Whether the item was used up. -/
def destroyed (r : CompositeResult) : Bool := r.consumption = .destroy

def damageEntries (r : CompositeResult) : List DamageEntry :=
  r.entries.filterMap fun
    | .damage d => some d
    | .other d => some d
    | _ => none

/-- The first attack roll. -/
def attack? (r : CompositeResult) : Option RollEntry :=
  r.entries.findSome? fun
    | .attack roll => some roll
    | _ => none

end CompositeResult

end Tabletop
