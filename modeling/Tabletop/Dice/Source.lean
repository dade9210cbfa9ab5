import Tabletop.Dice.Evaluate
import Tabletop.Dice.KeyStream
/-!
# Random sources

A random source evaluates texts of formulas. What a formula is worth at most needs no source.
-/

namespace Tabletop

/-- States from which texts of formulas can be evaluated. What a text is worth at most is given by
`maximize` for all of them; a source with maxima of its own is not among them. -/
class RandomSource (σ : Type) where
  evaluate : (text : String) → Bindings → Rolling σ EvaluatedRoll

/-- Reads a text as a formula and evaluates it with the dice of a roller. -/
def evaluateText {σ : Type} [Roller σ] (text : String) (bindings : Bindings) :
    Rolling σ EvaluatedRoll := do
  let formula ← Formula.parse text
  Formula.evaluate formula bindings

/-- The outcome in which every die shows its highest face. -/
def maximize (text : String) (bindings : Bindings) : Except FormulaError EvaluatedRoll :=
  (((evaluateText text bindings : Rolling Maximizer EvaluatedRoll).run).run Maximizer.mk).1

/-- A source that replays given faces, and counts the evaluations asked of it. -/
structure ScriptedSource where
  script : Script
  evaluations : Nat
deriving DecidableEq

namespace ScriptedSource

def ofFaces (faces : List Nat) : ScriptedSource := ⟨⟨faces⟩, 0⟩

/-- Queues more faces behind the others. -/
def extend (s : ScriptedSource) (faces : List Nat) : ScriptedSource :=
  { s with script := s.script.extend faces }

def remaining (s : ScriptedSource) : Nat := s.script.remaining

/-- An evaluation counts also if it fails. -/
def evaluate (text : String) (bindings : Bindings) : Rolling ScriptedSource EvaluatedRoll :=
  ExceptT.mk fun s =>
    let (result, script) := (evaluateText text bindings : Rolling Script _).run.run s.script
    (result, ⟨script, s.evaluations + 1⟩)

end ScriptedSource

instance : RandomSource ScriptedSource := ⟨ScriptedSource.evaluate⟩

instance : RandomSource KeyStream := ⟨evaluateText⟩

end Tabletop
