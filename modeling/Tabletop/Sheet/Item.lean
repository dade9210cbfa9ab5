import Tabletop.Bindings
import Tabletop.Number.Double
import Tabletop.Sheet.Ability
import Tabletop.Sheet.QuickRoll
import Tabletop.Text.Blank
/-!
# Items

Weapons, spells, features and goods, with all that is needed to roll them.
-/

namespace Tabletop

/-- One damage line. -/
structure DamagePart where
  formula : String
  damageType : Option DamageType := none
deriving DecidableEq

/-- Damage lines, and the formula of the first one when it is versatile. -/
structure Damage where
  parts : List DamagePart := []
  versatile : Option String := none
deriving DecidableEq

/-- The saving throw against an item. -/
structure SaveSpec where
  ability : Ability
  /-- Without a difficulty of its own, the item has that of its owner's spells. -/
  dc : Option Nat := none
deriving DecidableEq

/-- What the damage of a spell grows with. -/
inductive ScalingMode where
  | none
  /-- With the level of the caster. -/
  | cantrip
  /-- With the level of the slot above the spell's own level. -/
  | level
deriving DecidableEq

structure ScalingRule where
  mode : ScalingMode := .none
  /-- What one step adds; if it is blank, the damage formula itself. -/
  formula : String := ""
deriving DecidableEq

/-- Limited uses. -/
structure Uses where
  value : Nat := 0
  max : Nat := 0
  /-- What the uses come back with. -/
  per : Option String := none
  /-- Whether the item is removed once the last one is used up. -/
  autoDestroy : Bool := false
deriving DecidableEq

/-- Whether uses are tracked at all. -/
def Uses.isConfigured (u : Uses) : Bool := 0 < u.value || 0 < u.max || u.per.isSome

/-- A feature that has to recharge between uses. -/
structure Recharge where
  /-- The lowest face that recharges it. -/
  value : Nat := 0
  charged : Bool := false
deriving DecidableEq

inductive ConsumeKind where
  | ammo
  | property
  | material
  | charges
deriving DecidableEq

/-- Another resource that is spent with the item. -/
structure ConsumeTarget where
  kind : ConsumeKind
  /-- The id of an item, or the path of an attribute. -/
  target : String
  amount : Nat := 1
deriving DecidableEq

structure CritSettings where
  /-- The lowest face of an attack die that is critical. -/
  threshold : Option Nat := none
  /-- The damage line that is rolled once more after a critical hit. -/
  extraDamage : Option Nat := none
  /-- Dice that are added to every critical roll. -/
  bonusDice : Option String := none
deriving DecidableEq

structure Item where
  id : String
  name : String
  kind : ItemKind
  actionType : Option ActionType := none
  /-- The ability of attacks, checks and damage. -/
  ability : Option Ability := none
  /-- How many times the proficiency bonus counts. -/
  proficient : Double := .finite 0
  finesse : Bool := false
  attackBonus : Option String := none
  checkBonus : Option String := none
  damage : Damage := {}
  /-- The other formula. -/
  formula : Option String := none
  chatFlavor : Option String := none
  description : String := ""
  save : Option SaveSpec := none
  /-- The level of a spell; a cantrip has level zero. -/
  level : Nat := 0
  scaling : ScalingRule := {}
  uses : Uses := {}
  quantity : Nat := 1
  recharge : Option Recharge := none
  consume : Option ConsumeTarget := none
  crit : CritSettings := {}
  /-- Whether the item covers an area. -/
  areaTarget : Bool := false
  properties : List String := []
  presets : Option QuickRollPresets := none
deriving DecidableEq

namespace Item

def withAction (item : Item) (action : ActionType) : Item :=
  { item with actionType := some action }

/-- Adds a damage line behind the others. -/
def withDamage (item : Item) (formula : String) (damageType : Option DamageType) : Item :=
  { item with damage := { item.damage with parts := item.damage.parts ++ [⟨formula, damageType⟩] } }

def isAttack (item : Item) : Bool := item.actionType.any ActionType.isAttack

def isWeaponAttack (item : Item) : Bool := item.actionType.any ActionType.isWeaponAttack

/-- Tools, and items with an ability check. -/
def isCheck (item : Item) : Bool := item.kind = .tool || item.actionType = some .ability

def hasSave (item : Item) : Bool := item.save.isSome

/-- The other formula, if it is not blank. -/
def otherFormula? (item : Item) : Option String := item.formula.filter (!Text.blank ·)

/-- The versatile formula, if it is not blank. -/
def versatileFormula? (item : Item) : Option String := item.damage.versatile.filter (!Text.blank ·)

/-- What formulas can refer to of an item that is used at the given level, or at its own one. -/
def rollBindings (item : Item) (level : Option Nat) : Bindings :=
  (∅ : Bindings)
    |>.insert "level" (toString (level.getD item.level))
    |>.insert "quantity" (toString item.quantity)
    |>.insert "uses.value" (toString item.uses.value)
    |>.insert "uses.max" (toString item.uses.max)

end Item

end Tabletop
