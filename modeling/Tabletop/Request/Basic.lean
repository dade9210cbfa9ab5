import Tabletop.Dice.MultiRoll
import Tabletop.Run.Config
import Tabletop.Sheet.Ability
import Tabletop.Sheet.QuickRoll
/-!
# Roll requests

A run of an item is a list of requests, each of which is one step. Requests are stored and sent,
and so they hold their numbers as words of the width that they are written with.
-/

namespace Tabletop

structure AttackArgs where
  /-- The number of advantages; without one, that of the run. -/
  adv : Option UInt32 := none
  /-- The number of disadvantages; without one, that of the run. -/
  disadv : Option UInt32 := none
  /-- A formula that is added. -/
  bonus : Option String := none
  /-- Whether a critical roll makes the damage after it critical. -/
  triggersCrit : Bool := true
  /-- The lowest critical face, whatever the item and the actor say. -/
  critThreshold : Option UInt32 := none
deriving DecidableEq

structure CheckArgs where
  adv : Option UInt32 := none
  disadv : Option UInt32 := none
  bonus : Option String := none
  triggersCrit : Bool := true
  critThreshold : Option UInt32 := none
  title : Option String := none
deriving DecidableEq

/-- Which damage lines are rolled. -/
inductive DamageSelector where
  | index (index : UInt64)
  | indices (list : List UInt64)
  | all
deriving DecidableEq

/-- When damage has critical dice. -/
inductive CritOverride where
  /-- If the run is critical. -/
  | auto
  | always
  | never
deriving DecidableEq

structure DamageArgs where
  index : DamageSelector := .all
  /-- Whether the first selected line is versatile. -/
  versatile : Bool := false
  crit : CritOverride := .auto
  /-- A label of the damage. -/
  context : Option String := none
deriving DecidableEq

structure SaveDcArgs where
  ability : Option Ability := none
  dc : Option UInt32 := none
deriving DecidableEq

/-- Advantage or disadvantage. -/
inductive RollState where
  | adv
  | disadv
deriving DecidableEq

def RollState.selection : RollState → SelectionMode
  | adv => .highest
  | disadv => .lowest

structure CustomArgs where
  title : Option String := none
  formula : String := "1d20"
  rolls : UInt32 := 1
  rollState : Option RollState := none
deriving DecidableEq

/-- One step of a run. -/
inductive RollRequest where
  | attack (args : AttackArgs)
  | check (args : CheckArgs)
  | damage (args : DamageArgs)
  | saveDc (args : SaveDcArgs)
  /-- The other formula of the item. -/
  | other
  | custom (args : CustomArgs)
  | text (text : String)
  /-- Some text, or the item's own flavor text. -/
  | flavor (text : Option String)
  /-- The description of the item. -/
  | description
  /-- A damage line, or the item's own one, as the extra damage of a critical hit. -/
  | critExtra (index : Option UInt64)
deriving DecidableEq

/-- The name of the request's kind. -/
def RollRequest.name : RollRequest → String
  | attack _ => "attack"
  | check _ => "check"
  | damage _ => "damage"
  | saveDc _ => "save_dc"
  | other => "other"
  | custom _ => "custom"
  | text _ => "text"
  | flavor _ => "flavor"
  | description => "description"
  | critExtra _ => "crit_extra"

/-- Parameters of a whole run. -/
structure RollParams where
  adv : Nat := 0
  disadv : Nat := 0
  /-- The level at which a spell is cast; with it, nobody is asked for one. -/
  slotLevel : Option Nat := none
  /-- Whether the first damage line is versatile. -/
  versatile : Bool := false
  consume : ConsumptionRequest := {}
  /-- Whether the template of a feature or cantrip is placed. -/
  useTemplate : Bool := false
  critBehavior : Option CritBehavior := none
  title : Option String := none
  /-- Whether the item's properties are shown. -/
  properties : Bool := false
deriving DecidableEq

namespace RollParams

def selection (p : RollParams) : SelectionMode := .ofCounts p.adv p.disadv

def withAdvantage (p : RollParams) : RollParams := { p with adv := p.adv + 1 }

def withDisadvantage (p : RollParams) : RollParams := { p with disadv := p.disadv + 1 }

end RollParams

end Tabletop
