import Tabletop.Run.Context
/-!
# Attacks
-/

namespace Tabletop

/-- The ability that an item attacks with. A spell has its own, or that of its caster. A finesse
weapon has the better one of strength and dexterity, unless it has another one of its own. Other
weapons default to strength in melee and to dexterity at range. -/
def attackAbility (actor : Actor) (item : Item) : Option Ability :=
  if item.kind = .spell then item.ability <|> actor.spellcasting
  else if item.kind = .weapon && item.finesse &&
      (item.ability = none || item.ability = some .strength || item.ability = some .dexterity) then
    if actor.modifier .strength < actor.modifier .dexterity then some .dexterity
    else some .strength
  else
    item.ability <|>
      match item.actionType with
      | some .meleeWeapon => some .strength
      | some .rangedWeapon => some .dexterity
      | _ => none

/-- The bonus of an actor to the action of an item, if it adds something. -/
def actionBonus? (actor : Actor) (action : Option ActionType) (damage : Bool) :
    Option (ActionType × String) := do
  let action ← action
  let bonus ← if damage then actor.bonuses.damage? action else actor.bonuses.attack? action
  if isBonus bonus then some (action, bonus) else none

namespace RunContext

/-- The lowest critical face of an attack. -/
def attackCritThreshold (c : RunContext) (args : AttackArgs) : Nat :=
  match args.critThreshold with
  | some threshold => threshold.toNat
  | none =>
    let item := min 20 (c.item.crit.threshold.getD 20)
    if c.item.isWeaponAttack then min (c.actor.weaponCritThreshold.getD 20) item else item

/-- The proficiency bonus of an attack, if the item is one that its owner is proficient with. -/
def attackProficiency (c : RunContext) : Int :=
  if c.item.kind = .spell || c.item.kind = .feat then c.actor.proficiency
  else if (Double.finite 0).lt c.item.proficient then c.actor.proficiencyTimes c.item.proficient
  else 0

/-- Advantage or disadvantage of a request, or else of the run. -/
def selectionOf (c : RunContext) (adv disadv : Option UInt32) : SelectionMode :=
  .ofCounts ((adv.map UInt32.toNat).getD c.params.adv)
    ((disadv.map UInt32.toNat).getD c.params.disadv)

/-- The number of rolls of an attack: two with advantage or disadvantage, and a third one where
elven accuracy applies. -/
def attackRollCount (c : RunContext) (selection : SelectionMode) : Nat :=
  let count := if selection = .none then c.config.multiRollCount else 2
  let elven := c.actor.traits.elvenAccuracy &&
    (attackAbility c.actor c.item).any Ability.allowsElvenAccuracy && selection ≠ .lowest
  if count = 2 && elven then 3 else count

/-- All that is added to the die of an attack. -/
def attackTerms (c : RunContext) (args : AttackArgs) : RollTerms :=
  let r : RollTerms := ⟨[], c.bindings⟩
  let r := r.addInteger "abl" (((attackAbility c.actor c.item).map c.actor.modifier).getD 0)
  let r := r.addInteger "prof" c.attackProficiency
  let r := r.addBonus "bonus" c.item.attackBonus
  let r := r.addBonus "ammo" (c.ammo.bind (·.attackBonus))
  let r :=
    match actionBonus? c.actor c.item.actionType false with
    | some (action, bonus) => r.addBonus action.key (some bonus)
    | none => r
  r.addText args.bonus

def attackTitle (c : RunContext) : String :=
  match c.ammo with
  | some ammo => "Attack [" ++ ammo.name ++ "]"
  | none => "Attack"

/-- The multiple roll of an attack, and what its formula refers to. -/
def attackRoll (c : RunContext) (args : AttackArgs) : MultiRoll × Bindings :=
  let selection := c.selectionOf args.adv args.disadv
  let r := c.attackTerms args
  ({ formula := c.actor.d20
     terms := r.terms
     count := c.attackRollCount selection
     critThreshold := some (c.attackCritThreshold args)
     selection
     triggersCrit := args.triggersCrit }, r.bindings)

variable {σ : Type} [RandomSource σ]

def resolveAttack (c : RunContext) (args : AttackArgs) (p : Progress) :
    Resolving σ (Option ResultEntry × Progress) := do
  let (roll, bindings) := c.attackRoll args
  let outcome ← rolling (roll.resolve bindings)
  return (some (.attack ⟨c.rollTitle c.attackTitle, outcome⟩), p.recordOutcome outcome)

end RunContext

end Tabletop
