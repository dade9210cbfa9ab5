import Tabletop.Formula.Basic
import Tabletop.Sheet.SpellSlots
/-!
# Errors of runs
-/

namespace Tabletop

/-- Why a run is given up. Items are meant by their names, unless they are unknown. -/
inductive RollError where
  | insufficientUses (item : String)
  | notRecharged (item : String)
  | resourceConsumptionRefused (item : String)
  | slotSelectionCancelled (item : String)
  | noSlotsAvailable (item : String) (slot : SlotLevel)
  | unknownItem (id : String)
  | unknownSkill (id : String)
  /-- A damage line is asked for that the item does not have. -/
  | damageIndexOutOfRange (item : String) (index lines : Nat)
  | formula (error : FormulaError)
deriving DecidableEq

def RollError.message : RollError → String
  | insufficientUses item => item ++ " has no uses left"
  | notRecharged item => item ++ " is not recharged"
  | resourceConsumptionRefused item => "Linked resource of " ++ item ++ " could not be consumed"
  | slotSelectionCancelled item => "Slot selection for " ++ item ++ " was cancelled"
  | noSlotsAvailable item slot => "No " ++ slot.title ++ " slots left to cast " ++ item
  | unknownItem id => "Unknown item: " ++ id
  | unknownSkill id => "Unknown skill: " ++ id
  | damageIndexOutOfRange item index lines =>
    item ++ " has no damage line " ++ toString index ++ " (it has " ++ toString lines ++ ")"
  | formula error => "Formula error: " ++ error.message

end Tabletop
