import Tabletop.Formula.Scaling
import Tabletop.Run.Attack
import Tabletop.Run.Plan
/-!
# Damage and critical dice
-/

namespace Tabletop

/-- What is rolled for one damage entry, or for the other formula. -/
structure DamageRoll where
  /-- The item that the line is of: the one that is used, or its ammunition. -/
  item : Item
  formula : String
  bindings : Bindings
  damageType : Option DamageType
  versatile : Bool
  crit : CritOverride
  title : Option String
  context : Option String

namespace RunContext

/-- The modifier of a damage line, or of a formula that is no line. A spell has that of its casting
ability; a weapon or a feature without an ability has that of its attack on the first line. -/
def damageModifier (c : RunContext) (item : Item) (index : Option Nat) : Int :=
  let ability : Option Ability :=
    match item.ability with
    | some ability => some ability
    | none =>
      if item.kind = .spell then c.actor.spellcasting
      else if (item.kind = .weapon || item.kind = .feat) && index = some 0 then
        attackAbility c.actor item
      else none
  (ability.map c.actor.modifier).getD 0

/-- The steps by which the first damage line of a spell grows. -/
def scalingSteps (c : RunContext) : Nat :=
  if c.item.kind = .spell then
    match c.item.scaling.mode with
    | .none => 0
    | .cantrip => Scaling.cantripSteps c.actor.characterLevel
    | .level => Scaling.slotSteps (c.castLevel.getD c.item.level) c.item.level
  else 0

/-- The formula of the first damage line: it grows with a spell, and an attack adds the damage
bonus of its action. -/
def firstLineFormula (c : RunContext) (formula : String) (bindings : Bindings) :
    Except FormulaError String := do
  let scaled ← Scaling.scale formula c.item.scaling.formula c.scalingSteps bindings
  match actionBonus? c.actor c.item.actionType true with
  | some (_, bonus) => return Formula.compose [scaled, bonus]
  | none => return scaled

/-- The roll of a step, if the step has something to roll. -/
def damageRoll? (c : RunContext) (step : DamageStep) : Except RollError (Option DamageRoll) :=
  let item? :=
    match step.target with
    | .primary => some c.item
    | .ammo => c.ammo
  match item? with
  | none => .ok none
  | some item =>
    match item.damage.parts[step.index]? with
    | none => .error (.damageIndexOutOfRange item.name step.index item.damage.parts.length)
    | some part => do
      let versatile? := if step.versatile then item.versatileFormula? else none
      let written := Text.trim (versatile?.getD part.formula)
      if written = "" then return none
      let bindings := c.bindings.insert "mod" (toString (c.damageModifier item (some step.index)))
      let isPrimary : Bool := step.target = .primary
      let formula ←
        if isPrimary && step.index = 0 then
          (c.firstLineFormula written bindings).mapError RollError.formula
        else pure written
      let ownContext :=
        if isPrimary then item.presets.bind (·.damageContext? step.index) else none
      let title := if part.damageType.any DamageType.isHealing then none else some "Damage"
      return some {
        item, formula, bindings
        damageType := part.damageType
        versatile := versatile?.isSome
        crit := step.crit
        title
        context := step.context <|> ownContext }

/-- The roll of the other formula, if the item has one. -/
def otherRoll? (c : RunContext) : Option DamageRoll := do
  let formula ← c.item.otherFormula?
  return {
    item := c.item
    formula := Text.trim formula
    bindings := c.bindings.insert "mod" (toString (c.damageModifier c.item none))
    damageType := none
    versatile := false
    crit := .auto
    title := some "Other"
    context := (c.item.presets.bind (·.otherContext)).filter (· ≠ "") }

/-- What is shown of the damage type. -/
def damageText (damageType : Option DamageType) (versatile : Bool) : Option String :=
  match damageType, versatile with
  | some t, false => some t.title
  | some t, true => some (t.title ++ " (Versatile)")
  | none, true => some "Versatile"
  | none, false => none

/-- Whether a roll has critical dice, if its formula has dice at all. -/
def wantsCrit (c : RunContext) (isCrit : Bool) (override : CritOverride) : Bool :=
  c.critBehavior ≠ .none &&
    match override with
    | .always => true
    | .never => false
    | .auto => isCrit

/-- The critical dice of a formula whose variables are replaced: its dice, one die more in each
term for savage attacks, and the bonus dice of the item. There are none if it has no dice. -/
def critFormula? (c : RunContext) (item : Item) (base : String) :
    Except FormulaError (Option String) := do
  let dice := Formula.diceOnly (← Formula.parse base)
  if !Formula.hasDice dice then return none
  let savage := item.isWeaponAttack && c.actor.traits.savageAttacks
  let text := Formula.render (if savage then Formula.alter 1 1 false dice else dice)
  return some (item.crit.bonusDice.elim text fun bonus => Formula.compose [text, bonus])

variable {σ : Type} [RandomSource σ]

/-- Rolls critical dice as the configuration says; only bonus dice take dice of the source. The
maximum and the total are integers of 64 bits. Where they are `2 ^ 63` or more apart, their
difference need not be one, and what is rolled then is outside the model. -/
def rollCrit (behavior : CritBehavior) (formula : String) (base : EvaluatedRoll) (maxBase : Int) :
    Resolving σ (Option EvaluatedRoll) :=
  match behavior with
  | .none => return none
  | .bonusDiceOnly => some <$> rolling (RandomSource.evaluate formula ∅)
  | .maximizeBase => some <$> maximum formula ∅
  | .maximizeBoth =>
    let shortfall := maxBase - base.total
    let formula :=
      if 0 < shortfall then Formula.compose [formula, toString shortfall] else formula
    some <$> maximum formula ∅

/-- The critical dice of a base roll, if there are any. -/
def resolveCrit (c : RunContext) (item : Item) (base : EvaluatedRoll) (maxBase : Int) :
    Resolving σ (Option EvaluatedRoll) := do
  let formula? ← ((c.critFormula? item base.formula).mapError RollError.formula : Except _ _)
  match formula? with
  | none => return none
  | some formula => rollCrit c.critBehavior formula base maxBase

/-- Rolls the base dice, and the critical dice if there are any. -/
def resolveRoll (c : RunContext) (roll : DamageRoll) (p : Progress) :
    Resolving σ (DamageEntry × Progress) := do
  let base ← rolling (RandomSource.evaluate roll.formula roll.bindings)
  let p := p.recordRoll base
  let maxBase := (← maximum base.formula ∅).total
  let crit ←
    if c.wantsCrit p.isCrit roll.crit then c.resolveCrit roll.item base maxBase else pure none
  let maxCrit ←
    match crit with
    | some crit => do pure (some (← maximum crit.formula ∅).total)
    | none => pure none
  let entry : DamageEntry := {
    labels := .arrange c.config roll.title roll.context (damageText roll.damageType roll.versatile)
    damageType := roll.damageType
    versatile := roll.versatile
    base, crit
    critLabel := crit.map fun _ => c.config.critString
    maxBase, maxCrit }
  return (entry, crit.elim p p.recordRoll)

def resolveDamage (c : RunContext) (step : DamageStep) (p : Progress) :
    Resolving σ (Option ResultEntry × Progress) := do
  let p := p.markDamage
  match ← c.damageRoll? step with
  | none => return (none, p)
  | some roll =>
    let (entry, p) ← c.resolveRoll roll p
    return (some (.damage entry), p)

def resolveOther (c : RunContext) (p : Progress) :
    Resolving σ (Option ResultEntry × Progress) := do
  match c.otherRoll? with
  | none => return (none, p)
  | some roll =>
    let (entry, p) ← c.resolveRoll roll p
    return (some (.other entry), p)

end RunContext

end Tabletop
