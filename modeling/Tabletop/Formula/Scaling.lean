import Tabletop.Formula.Dice
import Tabletop.Formula.Substitution
/-!
# Scaling

How formulas grow with the level of a caster or of a spell slot.
-/

namespace Tabletop.Scaling

/-- The steps of a cantrip that is cast by a caster of this level. -/
def cantripSteps (level : Nat) : Nat := (level + 1) / 6

/-- The steps of an effect with a base level that is cast at a given level. -/
def slotSteps (used base : Nat) : Nat := used - base

/-- Adds the dice of `extra` to the first term, if that has dice of the same kind. -/
def combine? (base : Formula) (extra : DiceTerm) : Option Formula :=
  match base with
  | .dice first :: terms =>
    if first.sameKind extra then
      some (.dice { first with number := min maxCount (first.number + extra.number) } :: terms)
    else none
  | _ => none

/-- The text of `base` grown by `steps` times the formula `scaling`, or by `steps` times itself if
`scaling` is blank. A single dice term of the kind of the first term of `base` goes into that term,
and everything else is added behind. -/
def scale (base scaling : String) (steps : Nat) (bindings : Bindings) :
    Except FormulaError String := do
  if steps = 0 then return base
  let source := if Text.blank scaling then base else scaling
  let scaled := Formula.alter steps 0 true (← Formula.substitute bindings (← Formula.parse source))
  let grown := Formula.compose [base, Formula.render scaled]
  let formula ← Formula.parse base
  match scaled with
  | [.dice extra] =>
    match combine? formula extra with
    | some combined => return Formula.render combined
    | none => return grown
  | _ => return grown

end Tabletop.Scaling
