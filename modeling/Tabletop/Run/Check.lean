import Tabletop.Run.Attack
/-!
# Checks, free rolls and saving throws of an item
-/

namespace Tabletop.RunContext

/-- All that is added to the die of a check. -/
def checkTerms (c : RunContext) (args : CheckArgs) : RollTerms :=
  let r : RollTerms := ⟨[], c.bindings⟩
  let r := r.addInteger "mod" ((c.item.ability.map c.actor.modifier).getD 0)
  let r := r.addInteger "prof" (c.actor.proficiencyTimes c.item.proficient)
  let r := r.addBonus "bonus" c.item.checkBonus
  r.addText args.bonus

/-- The multiple roll of a check, and what its formula refers to. -/
def checkRoll (c : RunContext) (args : CheckArgs) : MultiRoll × Bindings :=
  let selection := c.selectionOf args.adv args.disadv
  let r := c.checkTerms args
  ({ formula := c.actor.d20
     terms := r.terms
     count := checkRollCount c.config selection
     critThreshold := args.critThreshold.map UInt32.toNat
     selection
     triggersCrit := args.triggersCrit }, r.bindings)

/-- The multiple roll of a free formula, which never makes the run critical. -/
def customRoll (args : CustomArgs) : MultiRoll :=
  let selection := (args.rollState.map RollState.selection).getD .none
  let count := max 1 args.rolls.toNat
  { formula := args.formula
    count := if selection ≠ .none && count = 1 then 2 else count
    selection }

/-- The difficulty of the item's saving throw, if an ability is known: that of the request, of the
item, or of the actor's spells. -/
def savingThrow? (c : RunContext) (args : SaveDcArgs) : Option ResultEntry := do
  let ability ← args.ability <|> c.item.save.map (·.ability)
  let dc := ((args.dc.map UInt32.toNat) <|> c.item.save.bind (·.dc)).getD c.actor.spellDifficulty
  let hidden :=
    match c.config.hideDc with
    | .never => false
    | .npcOnly => c.actor.kind = .npc
    | .always => true
  return .saveDc ⟨ability, dc, hidden⟩

variable {σ : Type} [RandomSource σ]

def resolveCheck (c : RunContext) (args : CheckArgs) (p : Progress) :
    Resolving σ (Option ResultEntry × Progress) := do
  let (roll, bindings) := c.checkRoll args
  let outcome ← rolling (roll.resolve bindings)
  return (some (.check ⟨c.rollTitle (args.title.getD "Check"), outcome⟩), p.recordOutcome outcome)

def resolveCustom (c : RunContext) (args : CustomArgs) (p : Progress) :
    Resolving σ (Option ResultEntry × Progress) := do
  let outcome ← rolling ((customRoll args).resolve c.bindings)
  return (some (.custom ⟨args.title, outcome⟩), p.recordOutcome outcome)

end Tabletop.RunContext
