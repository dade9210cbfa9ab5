/-!
# Abilities, actions and damage types

The fixed vocabularies that sheets of actors and items are written in.
-/

namespace Tabletop

/-- The six ability scores. -/
inductive Ability where
  | strength
  | dexterity
  | constitution
  | intelligence
  | wisdom
  | charisma
deriving DecidableEq

namespace Ability

def all : List Ability := [strength, dexterity, constitution, intelligence, wisdom, charisma]

/-- Three letters that stand for the ability in paths of formulas. -/
def key : Ability → String
  | strength => "str"
  | dexterity => "dex"
  | constitution => "con"
  | intelligence => "int"
  | wisdom => "wis"
  | charisma => "cha"

def ofKey? : String → Option Ability
  | "str" => some strength
  | "dex" => some dexterity
  | "con" => some constitution
  | "int" => some intelligence
  | "wis" => some wisdom
  | "cha" => some charisma
  | _ => none

theorem ofKey?_key (x : Ability) : ofKey? x.key = some x := by cases x <;> rfl

/-- The name shown to players. -/
def title : Ability → String
  | strength => "Strength"
  | dexterity => "Dexterity"
  | constitution => "Constitution"
  | intelligence => "Intelligence"
  | wisdom => "Wisdom"
  | charisma => "Charisma"

/-- Whether elven accuracy adds a third die to attacks with this ability. -/
def allowsElvenAccuracy : Ability → Bool
  | strength => false
  | constitution => false
  | _ => true

end Ability

/-- Whether a creature is played or not. -/
inductive ActorKind where
  | character
  | npc
deriving DecidableEq

inductive ItemKind where
  | weapon
  | spell
  | feat
  | consumable
  | equipment
  | tool
  | loot
deriving DecidableEq

/-- What using an item does. The first four are attacks: with melee and ranged weapons, and with
melee and ranged spells. -/
inductive ActionType where
  | meleeWeapon
  | rangedWeapon
  | meleeSpell
  | rangedSpell
  | save
  | heal
  | ability
  | utility
  | other
deriving DecidableEq

namespace ActionType

/-- Four letters or so that stand for the action in paths of formulas. -/
def key : ActionType → String
  | meleeWeapon => "mwak"
  | rangedWeapon => "rwak"
  | meleeSpell => "msak"
  | rangedSpell => "rsak"
  | save => "save"
  | heal => "heal"
  | ability => "abil"
  | utility => "util"
  | other => "other"

def ofKey? : String → Option ActionType
  | "mwak" => some meleeWeapon
  | "rwak" => some rangedWeapon
  | "msak" => some meleeSpell
  | "rsak" => some rangedSpell
  | "save" => some save
  | "heal" => some heal
  | "abil" => some ability
  | "util" => some utility
  | "other" => some other
  | _ => none

theorem ofKey?_key (x : ActionType) : ofKey? x.key = some x := by cases x <;> rfl

def isWeaponAttack : ActionType → Bool
  | meleeWeapon => true
  | rangedWeapon => true
  | _ => false

def isAttack : ActionType → Bool
  | meleeSpell => true
  | rangedSpell => true
  | a => a.isWeaponAttack

end ActionType

/-- Types of damage, and of healing. -/
inductive DamageType where
  | acid
  | bludgeoning
  | cold
  | fire
  | force
  | lightning
  | necrotic
  | piercing
  | poison
  | psychic
  | radiant
  | slashing
  | thunder
  | healing
  | temporaryHitPoints
deriving DecidableEq

namespace DamageType

def key : DamageType → String
  | acid => "acid"
  | bludgeoning => "bludgeoning"
  | cold => "cold"
  | fire => "fire"
  | force => "force"
  | lightning => "lightning"
  | necrotic => "necrotic"
  | piercing => "piercing"
  | poison => "poison"
  | psychic => "psychic"
  | radiant => "radiant"
  | slashing => "slashing"
  | thunder => "thunder"
  | healing => "healing"
  | temporaryHitPoints => "temphp"

def ofKey? : String → Option DamageType
  | "acid" => some acid
  | "bludgeoning" => some bludgeoning
  | "cold" => some cold
  | "fire" => some fire
  | "force" => some force
  | "lightning" => some lightning
  | "necrotic" => some necrotic
  | "piercing" => some piercing
  | "poison" => some poison
  | "psychic" => some psychic
  | "radiant" => some radiant
  | "slashing" => some slashing
  | "thunder" => some thunder
  | "healing" => some healing
  | "temphp" => some temporaryHitPoints
  | _ => none

theorem ofKey?_key (x : DamageType) : ofKey? x.key = some x := by cases x <;> rfl

/-- The name shown to players. -/
def title : DamageType → String
  | acid => "Acid"
  | bludgeoning => "Bludgeoning"
  | cold => "Cold"
  | fire => "Fire"
  | force => "Force"
  | lightning => "Lightning"
  | necrotic => "Necrotic"
  | piercing => "Piercing"
  | poison => "Poison"
  | psychic => "Psychic"
  | radiant => "Radiant"
  | slashing => "Slashing"
  | thunder => "Thunder"
  | healing => "Healing"
  | temporaryHitPoints => "Temporary HP"

def isHealing : DamageType → Bool
  | healing => true
  | temporaryHitPoints => true
  | _ => false

end DamageType

end Tabletop
