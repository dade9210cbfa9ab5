import Tabletop.Proofs.Dice.Evaluation
import Tabletop.Proofs.Dice.Rolls
/-!
# Sources of dice

A die shows one of its faces, whether it follows a script, a key stream, or always shows the highest
one. Every roll of a source, and every maximum, is rolled from a text by such dice: the text is
read, its variables are replaced, and what comes of that is evaluated.
-/

namespace Tabletop

/-- A roller whose dice show their faces. -/
class FairRoller (σ : Type) [Roller σ] : Prop where
  within : ∀ {faces : Nat} (s : σ), 1 ≤ faces →
    1 ≤ (Roller.roll faces s).1 ∧ (Roller.roll faces s).1 ≤ faces

instance : FairRoller Maximizer where
  within _ some := ⟨some, Nat.le_refl _⟩

instance : FairRoller Script where
  within {faces} s some := by
    change 1 ≤ (s.roll faces).1 ∧ (s.roll faces).1 ≤ faces
    unfold Script.roll
    split
    · exact ⟨Nat.le_refl 1, some⟩
    · exact ⟨Script.one_le_clampFace some _, Script.clampFace_le _ _⟩

/-- A word is below the number of words, so its product with a number of faces has a high half below
that number. -/
theorem KeyStream.rollWithin_le {faces : Nat} (some : 1 ≤ faces) (patience : Nat) (s : KeyStream) :
    1 ≤ (rollWithin faces patience s).1 ∧ (rollWithin faces patience s).1 ≤ faces := by
  induction patience generalizing s with
  | zero => exact ⟨Nat.le_refl 1, some⟩
  | succ patience ih =>
    rw [rollWithin]
    simp only
    split
    · have word : s.word.1.toNat < wordCount := s.word.1.toNat_lt
      have high : s.word.1.toNat * faces / wordCount < faces :=
        Nat.div_lt_of_lt_mul (Nat.mul_lt_mul_of_pos_right word some)
      exact ⟨Nat.le_add_right 1 _, by omega⟩
    · exact ih _

instance : FairRoller KeyStream where
  within s some := KeyStream.rollWithin_le some _ s

/-- A roll that some dice, which show their faces, made of a text. -/
inductive RolledFrom (text : String) (b : Bindings) : EvaluatedRoll → Prop
  | intro {σ : Type} [Roller σ] [FairRoller σ] {s s' : σ} {f g : Formula} {value : Double}
      {dice : List DieOutcome} (parsed : Formula.parse text = .ok f)
      (substituted : Formula.substitute b f = .ok g)
      (evaluated : perform (Formula.evaluateFrom Partial.start g) s = (.ok (value, dice), s')) :
      RolledFrom text b ⟨Formula.render g, value.floor.toInteger, dice⟩

/-- The reported text is settled before a die is rolled. -/
theorem RolledFrom.formula_eq {text : String} {b : Bindings} {r r' : EvaluatedRoll}
    (h : RolledFrom text b r) (h' : RolledFrom text b r') : r.formula = r'.formula := by
  obtain ⟨parsed, substituted, -⟩ := h
  obtain ⟨parsed', substituted', -⟩ := h'
  cases parsed.symm.trans parsed'
  cases substituted.symm.trans substituted'
  rfl

/-- What comes of a text when some dice, which show their faces, are rolled for it. -/
inductive EvaluatedBy (text : String) (b : Bindings) : Except FormulaError EvaluatedRoll → Prop
  | intro {σ : Type} [Roller σ] [FairRoller σ] (s : σ) :
      EvaluatedBy text b (perform (evaluateText text b) s).1

theorem evaluatedBy_maximize (text : String) (b : Bindings) :
    EvaluatedBy text b (maximize text b) := .intro Maximizer.mk

/-- An evaluation, taken apart: the text is read, its variables are replaced, and then dice are
rolled. -/
theorem EvaluatedBy.eq_of_substituted {text : String} {b : Bindings} {f g : Formula}
    {x : Except FormulaError EvaluatedRoll} (h : EvaluatedBy text b x)
    (parsed : Formula.parse text = .ok f) (substituted : Formula.substitute b f = .ok g) :
    ∃ (σ : Type) (_ : Roller σ) (_ : FairRoller σ) (s : σ),
      x = (perform (Formula.evaluateFrom Partial.start g) s).1.map
        fun r => ⟨Formula.render g, r.1.floor.toInteger, r.2⟩ := by
  obtain ⟨s⟩ := h
  refine ⟨_, _, ‹_›, s, ?_⟩
  rw [perform_evaluateText parsed, Formula.perform_evaluate_of_ok substituted]

theorem EvaluatedBy.rolledFrom {text : String} {b : Bindings} {r : EvaluatedRoll}
    (h : EvaluatedBy text b (.ok r)) : RolledFrom text b r := by
  generalize outcome : Except.ok r = x at h
  obtain ⟨s⟩ := h
  obtain ⟨f, u, read, h⟩ := perform_bind_ok_iff.1 (Prod.ext outcome.symm rfl)
  obtain ⟨g, v, replaced, h⟩ := perform_bind_ok_iff.1 h
  rw [perform_lift] at read replaced
  obtain ⟨parsed, rfl⟩ := Prod.mk.inj read
  obtain ⟨substituted, rfl⟩ := Prod.mk.inj replaced
  obtain ⟨⟨value, dice⟩, w, evaluated, made⟩ := perform_bind_ok_iff.1 h
  obtain ⟨same, -⟩ := Prod.mk.inj made
  rw [← Except.ok.inj same]
  exact .intro parsed substituted evaluated

theorem rolledFrom_of_maximize {text : String} {b : Bindings} {r : EvaluatedRoll}
    (h : maximize text b = .ok r) : RolledFrom text b r :=
  EvaluatedBy.rolledFrom (h ▸ evaluatedBy_maximize text b)

/-- A source whose evaluations are made by dice. -/
class DiceSource (σ : Type) [RandomSource σ] : Prop where
  evaluatedBy : ∀ (text : String) (b : Bindings) (s : σ),
    EvaluatedBy text b (perform (RandomSource.evaluate text b) s).1

instance : DiceSource KeyStream where
  evaluatedBy _ _ s := .intro s

instance : DiceSource ScriptedSource where
  evaluatedBy _ _ s := .intro s.script

theorem DiceSource.rolledFrom {σ : Type} [RandomSource σ] [DiceSource σ] {text : String}
    {b : Bindings} {s s' : σ} {r : EvaluatedRoll}
    (h : perform (RandomSource.evaluate text b) s = (.ok r, s')) : RolledFrom text b r := by
  have evaluated := DiceSource.evaluatedBy text b s
  rw [h] at evaluated
  exact evaluated.rolledFrom

end Tabletop
