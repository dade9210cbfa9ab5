import Tabletop.Run.Context
/-!
# Rolls of actors

Skill checks, ability checks and saving throws. They need no item and never make anything critical.
-/

namespace Tabletop

structure ActorRollArgs where
  adv : Nat := 0
  disadv : Nat := 0
  critThreshold : Option Nat := none
deriving DecidableEq

def ActorRollArgs.selection (a : ActorRollArgs) : SelectionMode := .ofCounts a.adv a.disadv

namespace Actor

/-- The modifier of a skill: ability, proficiency and a bonus of its own. A jack of all trades has
half the proficiency bonus in skills without training. -/
def skillModifier (actor : Actor) (skill : Skill) : Int :=
  let factor :=
    if skill.proficiency.isZero && actor.traits.jackOfAllTrades then .finite (1 / 2)
    else skill.proficiency
  actor.modifier skill.ability + actor.proficiencyTimes factor + skill.bonus

/-- The die of a skill check; reliable talent counts a trained roll as ten at least. -/
def skillDie (actor : Actor) (skill : Skill) : String :=
  if actor.traits.reliableTalent && skill.proficiency.ge (.finite 1) then actor.d20 ++ "min10"
  else actor.d20

/-- A modifier that is always added, as `@mod`. -/
def modifierTerms (actor : Actor) (modifier : Int) : RollTerms :=
  ⟨["@mod"], actor.rollBindings.insert "mod" (toString modifier)⟩

def skillTerms (actor : Actor) (skill : Skill) : RollTerms :=
  (actor.modifierTerms (actor.skillModifier skill)).addBonus "skillBonus" actor.bonuses.skill

/-- A jack of all trades adds half the proficiency bonus to all ability checks. -/
def checkTerms (actor : Actor) (ability : Ability) : RollTerms :=
  let r := (actor.modifierTerms (actor.modifier ability)).addBonus "checkBonus"
    actor.bonuses.abilityCheck
  if actor.traits.jackOfAllTrades then
    { r with terms := r.terms ++ ["floor(@attributes.prof / 2)"] }
  else r

/-- All that is added to a saving throw is one formula, bound to `@mod`, if there is anything. -/
def saveTerms (actor : Actor) (ability : Ability) : RollTerms :=
  let integer (n : Int) : List String := if n = 0 then [] else [toString n]
  let parts := integer (actor.modifier ability) ++
    integer (actor.proficiencyTimes (actor.abilities.get ability).saveProficiency) ++
    (actor.bonuses.abilitySave.filter isBonus).toList
  if parts.isEmpty then ⟨[], actor.rollBindings⟩
  else ⟨["@mod"], actor.rollBindings.insert "mod" (" + ".intercalate parts)⟩

variable {σ : Type} [RandomSource σ]

/-- Rolls a die with terms added to it. -/
def rollTerms (die : String) (r : RollTerms) (args : ActorRollArgs) (config : PipelineConfig)
    (title : String) : Resolving σ RollEntry := do
  let selection := args.selection
  let roll : MultiRoll := {
    formula := die
    terms := r.terms
    count := checkRollCount config selection
    critThreshold := args.critThreshold
    selection }
  return ⟨some title, ← rolling (roll.resolve r.bindings)⟩

/-- Rolls a skill check. -/
def rollSkill (actor : Actor) (name : String) (args : ActorRollArgs) (config : PipelineConfig) :
    Resolving σ RollEntry := do
  match actor.skills.get? name with
  | none => throw (.unknownSkill name)
  | some skill => rollTerms (actor.skillDie skill) (actor.skillTerms skill) args config name

/-- Rolls an ability check. -/
def rollCheck (actor : Actor) (ability : Ability) (args : ActorRollArgs)
    (config : PipelineConfig) : Resolving σ RollEntry :=
  rollTerms actor.d20 (actor.checkTerms ability) args config (ability.title ++ " Check")

/-- Rolls a saving throw. -/
def rollSave (actor : Actor) (ability : Ability) (args : ActorRollArgs)
    (config : PipelineConfig) : Resolving σ RollEntry :=
  rollTerms actor.d20 (actor.saveTerms ability) args config (ability.title ++ " Save")

end Actor

end Tabletop
