import Tabletop.Proofs.Dice.Rolls
/-!
# Evaluations taken apart

An evaluation is the substitution of variables and then one pass over what comes of it. Nothing is
rolled before every variable is replaced.
-/

namespace Tabletop

variable {σ : Type} [Roller σ]

theorem Term.operator_or_operand (t : Term) :
    (∃ op, t = .operator op) ∨ ∀ op, t ≠ .operator op := by
  cases t with
  | operator op => exact Or.inl ⟨op, rfl⟩
  | _ => exact Or.inr nofun

namespace Formula

/-- An operand is evaluated and taken in before the terms behind it. -/
theorem evaluateFrom_operand {t : Term} (operand : ∀ op, t ≠ .operator op) (p : Partial)
    (ts : List Term) :
    (evaluateFrom p (t :: ts) : Rolling σ _) = do
      let (value, dice) ← t.evaluate
      let p ← p.push value
      let (total, more) ← evaluateFrom p ts
      return (total, dice ++ more) := by
  rw [evaluateFrom]
  exact operand

variable {f g : Formula} {b : Bindings}

theorem perform_evaluate_of_ok (h : substitute b f = .ok g) (s : σ) :
    perform (evaluate f b) s =
      ((perform (evaluateFrom Partial.start g) s).1.map
          fun r => ⟨render g, r.1.floor.toInteger, r.2⟩,
        (perform (evaluateFrom Partial.start g) s).2) := by
  unfold evaluate
  rw [h]
  exact perform_map (fun r : Double × List DieOutcome =>
    (⟨render g, r.1.floor.toInteger, r.2⟩ : EvaluatedRoll)) _ s

theorem perform_evaluate_of_error {e : FormulaError} (h : substitute b f = .error e) (s : σ) :
    perform (evaluate f b) s = (.error e, s) := by
  unfold evaluate
  rw [h]
  rfl

end Formula

/-! ## The dice of an outcome -/

mutual

/-- The dice terms at any depth, in written order. -/
def Term.diceTerms : Term → List DiceTerm
  | .dice d => [d]
  | .group inner => Formula.diceTerms inner
  | .call _ argument => Formula.diceTerms argument
  | _ => []

def Formula.diceTerms : List Term → List DiceTerm
  | [] => []
  | t :: ts => t.diceTerms ++ Formula.diceTerms ts

end

theorem DiceTerm.faces_of_roll {d : DiceTerm} {s s' : σ} {outcome : DieOutcome}
    (h : perform d.roll s = (.ok outcome, s')) : outcome.faces = d.faces := by
  obtain ⟨-, dice, -, rfl⟩ := perform_roll_ok_iff.1 h
  rfl

mutual

theorem Term.faces_of_evaluate (t : Term) {s s' : σ} {value : Double} {dice : List DieOutcome}
    (h : perform t.evaluate s = (.ok (value, dice), s')) :
    dice.map (·.faces) = t.diceTerms.map (·.faces) := by
  match t with
  | .dice d =>
    obtain ⟨outcome, u, rolled, made⟩ := perform_bind_ok_iff.1 h
    cases made
    exact congrArg (fun faces => [faces]) (DiceTerm.faces_of_roll rolled)
  | .number n =>
    cases h
    rfl
  | .variable path =>
    cases h
    rfl
  | .group inner => exact Formula.faces_of_evaluateFrom inner h
  | .call function argument =>
    obtain ⟨⟨value, dice⟩, u, evaluated, made⟩ := perform_bind_ok_iff.1 h
    cases made
    exact Formula.faces_of_evaluateFrom argument evaluated
  | .operator op => cases h

/-- There is one outcome for each dice term, in written order. -/
theorem Formula.faces_of_evaluateFrom (ts : List Term) {p : Partial} {s s' : σ}
    {value : Double} {dice : List DieOutcome}
    (h : perform (Formula.evaluateFrom p ts) s = (.ok (value, dice), s')) :
    dice.map (·.faces) = (Formula.diceTerms ts).map (·.faces) := by
  match ts with
  | [] =>
    cases h
    rfl
  | t :: ts =>
    rcases t.operator_or_operand with ⟨op, rfl⟩ | operand
    · exact Formula.faces_of_evaluateFrom (p := { p with pending := some op }) ts h
    · rw [Formula.evaluateFrom_operand operand] at h
      obtain ⟨⟨first, dice⟩, u, evaluated, h⟩ := perform_bind_ok_iff.1 h
      obtain ⟨q, u', -, h⟩ := perform_bind_ok_iff.1 h
      obtain ⟨⟨total, more⟩, u'', rest, made⟩ := perform_bind_ok_iff.1 h
      cases made
      rw [Formula.diceTerms, List.map_append, List.map_append, t.faces_of_evaluate evaluated,
        Formula.faces_of_evaluateFrom ts rest]

end

end Tabletop
