import Tabletop.Run.Check
import Tabletop.Run.DamageRoll
/-!
# Resolution of steps

Each step of a plan yields at most one entry of the result. Steps are resolved in order, and each
sees what the ones before it left behind.
-/

namespace Tabletop.RunContext

/-- A text that is not empty. -/
def plainText? (text : String) : Option ResultEntry := if text = "" then none else some (.text text)

/-- A text, or the flavor text of the item, that is not empty. -/
def flavorText? (c : RunContext) (text : Option String) : Option ResultEntry :=
  ((text <|> c.item.chatFlavor).filter (· ≠ "")).map .flavor

variable {σ : Type} [RandomSource σ]

/-- Rolls a damage line once more after a critical hit; that roll never has critical dice. -/
def resolveCritExtra (c : RunContext) (index : Option Nat) (p : Progress) :
    Resolving σ (Option ResultEntry × Progress) := do
  match index <|> c.item.crit.extraDamage with
  | none => return (none, p)
  | some index =>
    Plan.checkIndex c.item index
    c.resolveDamage ⟨index, false, .never, none, .primary⟩ p

/-- The entry of a request, if it has one. Damage requests have none of their own: their lines are
steps by themselves. -/
def resolveRequest (c : RunContext) (request : RollRequest) (p : Progress) :
    Resolving σ (Option ResultEntry × Progress) :=
  match request with
  | .attack args => c.resolveAttack args p
  | .check args => c.resolveCheck args p
  | .damage _ => return (none, p)
  | .saveDc args => return (c.savingThrow? args, p)
  | .other => c.resolveOther p
  | .custom args => c.resolveCustom args p
  | .text text => return (plainText? text, p)
  | .flavor text => return (c.flavorText? text, p)
  | .description => return (plainText? c.item.description, p)
  | .critExtra index => c.resolveCritExtra (index.map UInt64.toNat) p

def resolveStep (c : RunContext) (step : Step) (p : Progress) :
    Resolving σ (Option ResultEntry × Progress) :=
  match step with
  | .damage step => c.resolveDamage step p
  | .request request => c.resolveRequest request p

/-- The entries of steps, in order. -/
def resolveSteps (c : RunContext) : List Step → Progress →
    Resolving σ (List ResultEntry × Progress)
  | [], p => return ([], p)
  | step :: steps, p => do
    let (entry, p) ← c.resolveStep step p
    let (entries, p) ← c.resolveSteps steps p
    return (entry.toList ++ entries, p)

/-- Whether the run rolls the extra damage line of the item behind all requests. -/
def addsCritExtra (c : RunContext) (p : Progress) : Bool :=
  p.isCrit && p.hasDamage && c.item.crit.extraDamage.isSome

/-- The entries of a whole plan. -/
def resolvePlan (c : RunContext) (steps : List Step) :
    Resolving σ (List ResultEntry × Progress) := do
  let (entries, p) ← c.resolveSteps steps {}
  if c.addsCritExtra p then
    let (entry, p) ← c.resolveCritExtra none p
    return (entries ++ entry.toList, p)
  else return (entries, p)

end Tabletop.RunContext
