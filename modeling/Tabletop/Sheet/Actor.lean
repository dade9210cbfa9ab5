import Tabletop.Sheet.Item
import Tabletop.Sheet.SpellSlots
/-!
# Actors

The creatures that own items and use them.
-/

namespace Tabletop

structure AbilityScore where
  value : Int := 10
  /-- How many times the proficiency bonus counts for saving throws. -/
  saveProficiency : Double := .finite 0
deriving DecidableEq

/-- Half of what the score is above ten, rounded down. -/
def AbilityScore.modifier (s : AbilityScore) : Int := (s.value - 10) / 2

structure AbilityScores where
  strength : AbilityScore := {}
  dexterity : AbilityScore := {}
  constitution : AbilityScore := {}
  intelligence : AbilityScore := {}
  wisdom : AbilityScore := {}
  charisma : AbilityScore := {}
deriving DecidableEq

namespace AbilityScores

def get (s : AbilityScores) : Ability → AbilityScore
  | .strength => s.strength
  | .dexterity => s.dexterity
  | .constitution => s.constitution
  | .intelligence => s.intelligence
  | .wisdom => s.wisdom
  | .charisma => s.charisma

def set (s : AbilityScores) (ability : Ability) (score : AbilityScore) : AbilityScores :=
  match ability with
  | .strength => { s with strength := score }
  | .dexterity => { s with dexterity := score }
  | .constitution => { s with constitution := score }
  | .intelligence => { s with intelligence := score }
  | .wisdom => { s with wisdom := score }
  | .charisma => { s with charisma := score }

end AbilityScores

/-- Formulas that are added to the rolls of one kind of attack. -/
structure ActionBonus where
  attack : Option String := none
  damage : Option String := none
deriving DecidableEq

structure ActorBonuses where
  meleeWeapon : ActionBonus := {}
  rangedWeapon : ActionBonus := {}
  meleeSpell : ActionBonus := {}
  rangedSpell : ActionBonus := {}
  /-- Added to every ability check. -/
  abilityCheck : Option String := none
  /-- Added to every saving throw. -/
  abilitySave : Option String := none
  /-- Added to every skill check. -/
  skill : Option String := none
deriving DecidableEq

namespace ActorBonuses

/-- The actions that have bonuses. -/
def actions : List ActionType := [.meleeWeapon, .rangedWeapon, .meleeSpell, .rangedSpell]

def action? (b : ActorBonuses) : ActionType → Option ActionBonus
  | .meleeWeapon => some b.meleeWeapon
  | .rangedWeapon => some b.rangedWeapon
  | .meleeSpell => some b.meleeSpell
  | .rangedSpell => some b.rangedSpell
  | _ => none

/-- The bonus to attacks, if it is not blank. -/
def attack? (b : ActorBonuses) (action : ActionType) : Option String :=
  ((b.action? action).bind (·.attack)).filter (!Text.blank ·)

/-- The bonus to damage, if it is not blank. -/
def damage? (b : ActorBonuses) (action : ActionType) : Option String :=
  ((b.action? action).bind (·.damage)).filter (!Text.blank ·)

end ActorBonuses

/-- Traits that change how dice are rolled. -/
structure ActorTraits where
  /-- Ones on d20s are rolled again. -/
  halflingLucky : Bool := false
  /-- Attacks with advantage have a third die. -/
  elvenAccuracy : Bool := false
  /-- Critical hits with weapons have one more die. -/
  savageAttacks : Bool := false
  /-- Skilled checks count as ten at least. -/
  reliableTalent : Bool := false
  /-- Unskilled checks have half the proficiency bonus. -/
  jackOfAllTrades : Bool := false
deriving DecidableEq

structure Skill where
  ability : Ability
  /-- How many times the proficiency bonus counts. -/
  proficiency : Double := .finite 0
  bonus : Int := 0
deriving DecidableEq

structure Actor where
  id : String
  name : String
  kind : ActorKind := .character
  /-- The level of a character, or the challenge rating of a creature. -/
  level : Nat := 1
  /-- The levels in each class. -/
  classes : NameMap Nat := ∅
  abilities : AbilityScores := {}
  proficiency : Int := 2
  spellcasting : Option Ability := none
  /-- The difficulty of saving throws against spells, if it is not derived. -/
  spellDc : Option Nat := none
  spells : SpellSlots := {}
  bonuses : ActorBonuses := {}
  traits : ActorTraits := {}
  weaponCritThreshold : Option Nat := none
  skills : NameMap Skill := ∅
  /-- The inventory, in order. -/
  items : List Item := []
deriving DecidableEq

/-- Replaces the first element with a property by what `f` makes of it. -/
def modifyFirst {α : Type} (p : α → Bool) (f : α → α) : List α → List α
  | [] => []
  | a :: as => if p a then f a :: as else a :: modifyFirst p f as

namespace Actor

def modifier (actor : Actor) (ability : Ability) : Int := (actor.abilities.get ability).modifier

/-- The level that cantrips grow with: the sum of the class levels of a character that has any. -/
def characterLevel (actor : Actor) : Nat :=
  if actor.kind = .character && !actor.classes.isEmpty then
    sumOf (actor.classes.entries.map (·.2))
  else actor.level

/-- The difficulty of saving throws against spells. One that is derived is never negative, and its
lowest 32 bits count. -/
def spellDifficulty (actor : Actor) : Nat :=
  match actor.spellDc with
  | some dc => dc
  | none =>
    let modifier := (actor.spellcasting.map actor.modifier).getD 0
    (8 + actor.proficiency + modifier).toNat % wordCount

/-- Some multiple of the proficiency bonus, rounded down. -/
def proficiencyTimes (actor : Actor) (factor : Double) : Int :=
  (factor * Double.ofInt actor.proficiency).floor.toInteger

/-- The first item with an id. -/
def item? (actor : Actor) (id : String) : Option Item := actor.items.find? (·.id == id)

/-- Changes the first item with an id. -/
def modifyItem (actor : Actor) (id : String) (f : Item → Item) : Actor :=
  { actor with items := modifyFirst (·.id == id) f actor.items }

/-- Removes the first item with an id. -/
def removeItem (actor : Actor) (id : String) : Actor :=
  { actor with items := actor.items.eraseP (·.id == id) }

/-- Adds an item at the end of the inventory. -/
def withItem (actor : Actor) (item : Item) : Actor := { actor with items := actor.items ++ [item] }

/-- Binds the modifier and the value of an ability. -/
def bindAbility (actor : Actor) (b : Bindings) (ability : Ability) : Bindings :=
  let path := "abilities." ++ ability.key
  (b.insert (path ++ ".mod") (toString (actor.modifier ability))).insert (path ++ ".value")
    (toString (actor.abilities.get ability).value)

/-- Binds a text if there is one. -/
def bindOption (b : Bindings) (path : String) : Option String → Bindings
  | some text => b.insert path text
  | none => b

/-- Binds the bonuses of an action that are set. -/
def bindAction (actor : Actor) (b : Bindings) (action : ActionType) : Bindings :=
  let path := "bonuses." ++ action.key
  match actor.bonuses.action? action with
  | some bonus => bindOption (bindOption b (path ++ ".attack") bonus.attack) (path ++ ".damage")
      bonus.damage
  | none => b

/-- What formulas can refer to of an actor. -/
def rollBindings (actor : Actor) : Bindings :=
  let b := Ability.all.foldl actor.bindAbility ∅
  let b := b.insert "attributes.prof" (toString actor.proficiency)
  let b := b.insert "prof" (toString actor.proficiency)
  let b := b.insert "attributes.spelldc" (toString actor.spellDifficulty)
  let b := b.insert "details.level" (toString actor.characterLevel)
  let b := actor.classes.entries.foldl
    (fun b c => b.insert ("classes." ++ c.1 ++ ".levels") (toString c.2)) b
  ActorBonuses.actions.foldl actor.bindAction b

end Actor

end Tabletop
