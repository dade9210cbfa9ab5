import Tabletop.Dice.MultiRoll
import Tabletop.Proofs.Computation
/-!
# Rolls that succeed

What the roll of a dice term comes down to, and once a text is read what its evaluation, its highest
outcome, and a multiple roll of it come down to.
-/

namespace Tabletop

section

variable {σ : Type} [Roller σ] {text : String} {f : List Term}

theorem perform_evaluateText (parsed : Formula.parse text = .ok f) (b : Bindings) (s : σ) :
    perform (evaluateText text b) s = perform (Formula.evaluate f b) s := by
  unfold evaluateText
  rw [parsed]
  rfl

theorem maximize_eq (parsed : Formula.parse text = .ok f) (b : Bindings) :
    maximize text b = (perform (Formula.evaluate f b) Maximizer.mk).1 := by
  rw [← perform_evaluateText parsed]
  rfl

/-- A scripted source counts each evaluation, and otherwise follows its script. -/
theorem perform_evaluate_scripted (parsed : Formula.parse text = .ok f) (b : Bindings)
    (s : ScriptedSource) :
    perform (RandomSource.evaluate text b) s =
      ((perform (Formula.evaluate f b) s.script).1,
        ⟨(perform (Formula.evaluate f b) s.script).2, s.evaluations + 1⟩) := by
  rw [← perform_evaluateText parsed]
  rfl

/-- An evaluation by a script, from its outcome and what is left of the script. -/
theorem perform_evaluate_scripted_ok (parsed : Formula.parse text = .ok f) {b : Bindings}
    {s : ScriptedSource} {roll : EvaluatedRoll} {left : Script}
    (rolled : (perform (Formula.evaluate f b) s.script).1.toOption = some roll)
    (rest : (perform (Formula.evaluate f b) s.script).2 = left) :
    perform (RandomSource.evaluate text b) s = (.ok roll, ⟨left, s.evaluations + 1⟩) := by
  rw [perform_evaluate_scripted parsed, eq_ok_of_toOption rolled, rest]

/-- The dice of a term are rolled, if they are not too many, and then its modifiers are applied. -/
theorem DiceTerm.perform_roll_ok_iff {d : DiceTerm} {s s' : σ} {o : DieOutcome} :
    perform d.roll s = (.ok o, s') ↔ d.number ≤ maxDice ∧
      ∃ dice, applyModifiers d.faces d.modifiers (rollMany d.faces d.number s).1
        (rollMany d.faces d.number s).2 = (dice, s') ∧ o = ⟨d.faces, dice⟩ := by
  unfold DiceTerm.roll
  by_cases many : maxDice < d.number
  · rw [if_pos many]
    constructor
    · rintro ⟨⟩
    · rintro ⟨few, -⟩
      exact absurd many (Nat.not_lt.2 few)
  · rw [if_neg many]
    constructor
    · rintro ⟨⟩
      exact ⟨Nat.not_lt.1 many, _, rfl, rfl⟩
    · rintro ⟨-, dice, applied, rfl⟩
      obtain ⟨rfl, rfl⟩ := Prod.mk.inj applied
      rfl

end

variable {σ : Type} [RandomSource σ]

theorem perform_evaluateTimes_succ_ok_iff {text : String} {b : Bindings} {n : Nat} {s s' : σ}
    {rolls : List EvaluatedRoll} :
    perform (evaluateTimes text b (n + 1)) s = (.ok rolls, s') ↔
      ∃ roll u rest, perform (RandomSource.evaluate text b) s = (.ok roll, u) ∧
        perform (evaluateTimes text b n) u = (.ok rest, s') ∧ rolls = roll :: rest := by
  rw [evaluateTimes]
  constructor
  · intro h
    obtain ⟨roll, u, rolled, h⟩ := perform_bind_ok_iff.1 h
    obtain ⟨rest, v, others, h⟩ := perform_bind_ok_iff.1 h
    cases h
    exact ⟨roll, u, rest, rolled, others, rfl⟩
  · rintro ⟨roll, u, rest, rolled, others, rfl⟩
    exact perform_bind_ok_iff.2 ⟨roll, u, rolled, perform_bind_ok_iff.2 ⟨rest, s', others, rfl⟩⟩

theorem perform_resolve_ok_iff {m : MultiRoll} {b : Bindings} {s s' : σ} {o : MultiRollOutcome} :
    perform (m.resolve b) s = (.ok o, s') ↔
      ∃ f rolls, Formula.parse m.composed = .ok f ∧
        perform (evaluateTimes m.composed b m.rollCount) s = (.ok rolls, s') ∧
        o = m.outcomeOf (MultiRoll.filterOf f) rolls := by
  unfold MultiRoll.resolve
  constructor
  · intro h
    obtain ⟨f, u, parsed, rest⟩ := perform_bind_ok_iff.1 h
    obtain ⟨rolls, v, rolled, made⟩ := perform_bind_ok_iff.1 rest
    rw [perform_lift] at parsed
    obtain ⟨read, rfl⟩ := Prod.mk.inj parsed
    cases made
    exact ⟨f, rolls, read, rolled, rfl⟩
  · rintro ⟨f, rolls, parsed, rolled, rfl⟩
    rw [parsed]
    exact perform_bind_ok_iff.2 ⟨f, s, rfl, perform_bind_ok_iff.2 ⟨rolls, s', rolled, rfl⟩⟩

end Tabletop
