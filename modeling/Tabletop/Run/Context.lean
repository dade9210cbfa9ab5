import Tabletop.Dice.MultiRoll
import Tabletop.Request.Basic
import Tabletop.Run.Error
import Tabletop.Run.Result
import Tabletop.Sheet.Actor
/-!
# Context of a run

What the steps of one run share: what they read, and what they leave behind for later steps.
-/

namespace Tabletop

/-- What the steps of a run read. The actor and the item are as they were before the run. -/
structure RunContext where
  config : PipelineConfig
  params : RollParams
  actor : Actor
  item : Item
  /-- The ammunition that is fired with the item. -/
  ammo : Option Item
  /-- The level at which a spell is cast. -/
  castLevel : Option Nat
  /-- What formulas can refer to of the actor and, under `item.`, of the item. -/
  bindings : Bindings

/-- What the steps of a run leave behind. -/
structure Progress where
  isCrit : Bool := false
  /-- Whether some damage line was reached. -/
  hasDamage : Bool := false
  /-- All rolls so far, in order. -/
  dicePool : List EvaluatedRoll := []
deriving DecidableEq

namespace Progress

/-- Takes in all rolls of a multiple roll, and becomes critical if it makes the run critical. -/
def recordOutcome (p : Progress) (o : MultiRollOutcome) : Progress :=
  { p with dicePool := p.dicePool ++ o.rolls, isCrit := p.isCrit || o.flipsCrit }

def recordRoll (p : Progress) (r : EvaluatedRoll) : Progress :=
  { p with dicePool := p.dicePool ++ [r] }

def markDamage (p : Progress) : Progress := { p with hasDamage := true }

end Progress

/-- A computation that rolls dice and can give up the run; dice rolled before stay rolled. -/
abbrev Resolving (σ : Type) := ExceptT RollError (StateM σ)

/-- Rolls dice; an error of a formula gives up the run. -/
def rolling {σ α : Type} (x : Rolling σ α) : Resolving σ α := ExceptT.adapt .formula x

/-- The highest outcome of a text; an error of the formula gives up the run. -/
def maximum {σ : Type} (text : String) (bindings : Bindings) : Resolving σ EvaluatedRoll :=
  ((maximize text bindings).mapError RollError.formula : Except RollError EvaluatedRoll)

namespace RunContext

/-- The critical behaviour of the run, or else of the configuration. -/
def critBehavior (c : RunContext) : CritBehavior :=
  c.params.critBehavior.getD c.config.critBehavior

/-- The title of a roll, unless titles are hidden. -/
def rollTitle (c : RunContext) (title : String) : Option String :=
  if c.config.rollTitlePlacement = .hidden then none else some title

end RunContext

/-- Whether a bonus adds something. -/
def isBonus (formula : String) : Bool :=
  let text := Text.trim formula
  text ≠ "" && text ≠ "0"

/-- The d20 of an actor. -/
def Actor.d20 (actor : Actor) : String := if actor.traits.halflingLucky then "1d20r<2" else "1d20"

/-- The number of rolls of a check; with advantage or disadvantage there are at least two. -/
def checkRollCount (config : PipelineConfig) (selection : SelectionMode) : Nat :=
  if selection = .none then config.multiRollCount else max 2 config.multiRollCount

/-- Terms that are added to a die, and what their variables stand for. -/
structure RollTerms where
  terms : List String
  bindings : Bindings

namespace RollTerms

/-- Adds `@name` with a value, unless the value is zero. -/
def addInteger (r : RollTerms) (name : String) (value : Int) : RollTerms :=
  if value = 0 then r
  else ⟨r.terms ++ ["@" ++ name], r.bindings.insert name (toString value)⟩

/-- Adds `@name` with a bonus, if it adds something. -/
def addBonus (r : RollTerms) (name : String) (bonus : Option String) : RollTerms :=
  match bonus.filter isBonus with
  | some text => ⟨r.terms ++ ["@" ++ name], r.bindings.insert name text⟩
  | none => r

/-- Adds the text of a bonus itself, if it adds something. -/
def addText (r : RollTerms) (bonus : Option String) : RollTerms :=
  ⟨r.terms ++ (bonus.filter isBonus).toList, r.bindings⟩

end RollTerms

end Tabletop
