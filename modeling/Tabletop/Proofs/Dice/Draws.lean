import Tabletop.Proofs.Dice.Rolls
/-!
# Drawing dice

Every die that an evaluation draws from its roller is recorded in the outcome, whatever the roller:
rerolled dice stay in the record, and dice that are dropped or raised are no new ones. A script
therefore loses as many faces as the outcome has dice.
-/

namespace Tabletop

section

variable {σ : Type} [Roller σ]

/-- Dice that are drawn one after the other, each with its number of faces and the face shown. -/
inductive Draws : σ → List (Nat × Nat) → σ → Prop
  | nil (s : σ) : Draws s [] s
  | cons {faces : Nat} {s s' : σ} {drawn : List (Nat × Nat)}
      (rest : Draws (Roller.roll faces s).2 drawn s') :
      Draws s ((faces, (Roller.roll faces s).1) :: drawn) s'

theorem Draws.append {s u s' : σ} {first second : List (Nat × Nat)} (h : Draws s first u)
    (h' : Draws u second s') : Draws s (first ++ second) s' := by
  induction h with
  | nil s => exact h'
  | cons rest ih => exact .cons (ih h')

/-- That many dice are drawn on the way from one state to another. -/
def DrawsMany (s : σ) (count : Nat) (s' : σ) : Prop :=
  ∃ drawn, Draws s drawn s' ∧ drawn.length = count

namespace DrawsMany

theorem zero (s : σ) : DrawsMany s 0 s := ⟨[], .nil s, rfl⟩

theorem one (faces : Nat) (s : σ) : DrawsMany s 1 (Roller.roll faces s).2 :=
  ⟨_, .cons (.nil _), rfl⟩

theorem trans {s u s' : σ} {m n : Nat} (h : DrawsMany s m u) (h' : DrawsMany u n s') :
    DrawsMany s (m + n) s' := by
  obtain ⟨first, draws, rfl⟩ := h
  obtain ⟨second, draws', rfl⟩ := h'
  exact ⟨first ++ second, draws.append draws', List.length_append⟩

end DrawsMany

/-! ## The dice of one term -/

theorem rollMany_draws (faces number : Nat) (s : σ) :
    DrawsMany s number (rollMany faces number s).2 ∧
      (rollMany faces number s).1.length = number := by
  induction number generalizing s with
  | zero => exact ⟨.zero s, rfl⟩
  | succ number ih =>
    obtain ⟨draws, length⟩ := ih (Roller.roll faces s).2
    have more := (DrawsMany.one faces s).trans draws
    rw [Nat.add_comm] at more
    exact ⟨more, congrArg (· + 1) length⟩

/-- Dice are recorded as they are drawn: what is added to a list of dice was drawn, and nothing else
was. -/
def DrawsInto (s : σ) (before : List DieResult) (after : List DieResult × σ) : Prop :=
  ∃ count, DrawsMany s count after.2 ∧ after.1.length = before.length + count

theorem rerollBelow_drawsInto (faces bound : Nat) (dice : List DieResult) (s : σ) :
    DrawsInto s dice (rerollBelow faces bound dice s) := by
  induction dice generalizing s with
  | nil => exact ⟨0, .zero s, rfl⟩
  | cons die dice ih =>
    rw [rerollBelow]
    split
    · obtain ⟨count, draws, length⟩ := ih (Roller.roll faces s).2
      refine ⟨1 + count, (DrawsMany.one faces s).trans draws, ?_⟩
      simp only [List.length_cons, length]
      omega
    · obtain ⟨count, draws, length⟩ := ih s
      refine ⟨count, draws, ?_⟩
      simp only [List.length_cons, length]
      omega

omit [Roller σ] in
theorem length_deactivate (places : List Nat) (place : Nat) (dice : List DieResult) :
    (deactivate places place dice).length = dice.length := by
  induction dice generalizing place with
  | nil => rfl
  | cons die dice ih => simp [deactivate, ih]

theorem DieModifier.apply_drawsInto (faces : Nat) (dice : List DieResult) (s : σ)
    (m : DieModifier) : DrawsInto s dice (m.apply faces dice s) := by
  cases m with
  | rerollBelow bound => exact rerollBelow_drawsInto faces bound dice s
  | keepHighest count => exact ⟨0, .zero s, length_deactivate _ _ _⟩
  | keepLowest count => exact ⟨0, .zero s, length_deactivate _ _ _⟩
  | minimum least => exact ⟨0, .zero s, List.length_map _⟩

theorem applyModifiers_drawsInto (faces : Nat) (ms : List DieModifier) (dice : List DieResult)
    (s : σ) : DrawsInto s dice (applyModifiers faces ms dice s) := by
  induction ms generalizing dice s with
  | nil => exact ⟨0, .zero s, rfl⟩
  | cons m ms ih =>
    obtain ⟨first, draws, length⟩ := m.apply_drawsInto faces dice s
    obtain ⟨second, draws', length'⟩ := ih (m.apply faces dice s).1 (m.apply faces dice s).2
    refine ⟨first + second, draws.trans draws', ?_⟩
    change (applyModifiers faces ms (m.apply faces dice s).1 (m.apply faces dice s).2).1.length = _
    omega

theorem DiceTerm.roll_draws {d : DiceTerm} {s s' : σ} {outcome : DieOutcome}
    (h : perform d.roll s = (.ok outcome, s')) : DrawsMany s outcome.results.length s' := by
  obtain ⟨-, dice, applied, rfl⟩ := perform_roll_ok_iff.1 h
  obtain ⟨draws, length⟩ := rollMany_draws d.faces d.number s
  obtain ⟨count, draws', length'⟩ := applyModifiers_drawsInto d.faces d.modifiers
    (rollMany d.faces d.number s).1 (rollMany d.faces d.number s).2
  rw [applied] at draws' length'
  rw [length', length]
  exact draws.trans draws'

/-! ## Evaluations -/

/-- The number of single dice of the outcomes of some dice terms. -/
def diceLength (dice : List DieOutcome) : Nat := sumOf (dice.map (·.results.length))

omit [Roller σ] in
theorem diceLength_append (dice more : List DieOutcome) :
    diceLength (dice ++ more) = diceLength dice + diceLength more := by
  unfold diceLength
  rw [List.map_append, sumOf_append]

mutual

theorem Term.draws_of_evaluate (t : Term) {s s' : σ} {value : Double} {dice : List DieOutcome}
    (h : perform t.evaluate s = (.ok (value, dice), s')) : DrawsMany s (diceLength dice) s' := by
  match t with
  | .dice d =>
    obtain ⟨outcome, u, rolled, made⟩ := perform_bind_ok_iff.1 h
    cases made
    exact d.roll_draws rolled
  | .number n =>
    cases h
    exact .zero s
  | .variable path =>
    cases h
    exact .zero s
  | .group inner => exact Formula.draws_of_evaluateFrom inner h
  | .call function argument =>
    obtain ⟨⟨value, dice⟩, u, evaluated, made⟩ := perform_bind_ok_iff.1 h
    cases made
    exact Formula.draws_of_evaluateFrom argument evaluated
  | .operator op => cases h

theorem Formula.draws_of_evaluateFrom (ts : List Term) {p : Partial} {s s' : σ} {value : Double}
    {dice : List DieOutcome} (h : perform (Formula.evaluateFrom p ts) s = (.ok (value, dice), s')) :
    DrawsMany s (diceLength dice) s' := by
  match ts with
  | [] =>
    cases h
    exact .zero s
  | t :: ts =>
    by_cases operator : ∃ op, t = .operator op
    · obtain ⟨op, rfl⟩ := operator
      exact Formula.draws_of_evaluateFrom ts h
    · rw [Formula.evaluateFrom] at h
      · obtain ⟨⟨value, first⟩, u, evaluated, h⟩ := perform_bind_ok_iff.1 h
        obtain ⟨q, v, pushed, h⟩ := perform_bind_ok_iff.1 h
        obtain ⟨⟨total, rest⟩, w, later, made⟩ := perform_bind_ok_iff.1 h
        obtain ⟨-, rfl⟩ := Prod.mk.inj pushed
        cases made
        rw [diceLength_append]
        exact (t.draws_of_evaluate evaluated).trans (Formula.draws_of_evaluateFrom ts later)
      · rintro op rfl
        exact operator ⟨op, rfl⟩

end

theorem Formula.draws_of_evaluate {f : Formula} {b : Bindings} {s s' : σ} {roll : EvaluatedRoll}
    (h : perform (Formula.evaluate f b) s = (.ok roll, s')) : DrawsMany s roll.dieCount s' := by
  obtain ⟨resolved, u, substituted, h⟩ := perform_bind_ok_iff.1 h
  obtain ⟨⟨value, dice⟩, v, evaluated, made⟩ := perform_bind_ok_iff.1 h
  obtain ⟨-, rfl⟩ := Prod.mk.inj substituted
  cases made
  exact draws_of_evaluateFrom resolved evaluated

theorem draws_of_evaluateText {text : String} {b : Bindings} {s s' : σ} {roll : EvaluatedRoll}
    (h : perform (evaluateText text b) s = (.ok roll, s')) : DrawsMany s roll.dieCount s' := by
  obtain ⟨f, u, parsed, h⟩ := perform_bind_ok_iff.1 h
  obtain ⟨-, rfl⟩ := Prod.mk.inj parsed
  exact Formula.draws_of_evaluate h

end

/-! ## Scripts -/

theorem Script.roll_faces (faces : Nat) (s : Script) :
    (Roller.roll faces s).2.faces = s.faces.drop 1 := by
  obtain ⟨queue⟩ := s
  cases queue with
  | nil => rfl
  | cons value rest => rfl

/-- Each die takes a face from the queue, as long as there are any. -/
theorem DrawsMany.script {s s' : Script} {count : Nat} (h : DrawsMany s count s') :
    s'.faces = s.faces.drop count := by
  obtain ⟨drawn, draws, rfl⟩ := h
  induction draws with
  | nil s => rfl
  | cons rest ih =>
    rw [ih, Script.roll_faces, List.drop_drop, List.length_cons, Nat.add_comm]

theorem scripted_of_evaluate {text : String} {b : Bindings} {s s' : ScriptedSource}
    {roll : EvaluatedRoll} (h : perform (RandomSource.evaluate text b) s = (.ok roll, s')) :
    s'.evaluations = s.evaluations + 1 ∧
      s'.script.faces = s.script.faces.drop roll.dieCount := by
  obtain ⟨rolled, rfl⟩ := Prod.mk.inj h
  have evaluated : perform (evaluateText text b) s.script =
      (.ok roll, (perform (evaluateText text b) s.script).2) := Prod.ext rolled rfl
  exact ⟨rfl, (draws_of_evaluateText evaluated).script⟩

end Tabletop
