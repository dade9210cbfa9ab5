import Tabletop.Proofs.Dice.Evaluation
import Tabletop.Proofs.Number.SignedZero
/-!
# Evaluations that differ in the signs of zeros

Values that are the same number, the two zeros being one, lead to the same dice, to the same errors
and to values that are the same number again. So terms can be exchanged for others of the same value
wherever they stand. Every value is rounded, whatever the terms.
-/

namespace Tabletop

/-! ## Values are rounded -/

section

variable {σ : Type} [Roller σ]

theorem MathFunction.rounded_apply (function : MathFunction) {x : Double} (h : x.Rounded) :
    (function.apply x).Rounded := by
  cases function with
  | floor => exact Double.rounded_floor h
  | ceil => exact Double.rounded_ceil h
  | round => exact Double.rounded_round h
  | abs => exact Double.rounded_abs h

theorem Formula.rounded_of_evaluateFrom (ts : List Term) {p : Partial} {s s' : σ} {value : Double}
    {dice : List DieOutcome} (h : perform (evaluateFrom p ts) s = (.ok (value, dice), s')) :
    value.Rounded := by
  induction ts generalizing p s dice with
  | nil =>
    cases h
    exact Double.rounded_add _ _
  | cons t ts ih =>
    rcases t.operator_or_operand with ⟨op, rfl⟩ | operand
    · exact ih (p := { p with pending := some op }) h
    · rw [evaluateFrom_operand operand] at h
      obtain ⟨first, u, -, h⟩ := perform_bind_ok_iff.1 h
      obtain ⟨q, u', -, h⟩ := perform_bind_ok_iff.1 h
      obtain ⟨⟨total, more⟩, u'', rest, made⟩ := perform_bind_ok_iff.1 h
      cases made
      exact ih rest

theorem Term.rounded_of_evaluate {t : Term} {s s' : σ} {value : Double} {dice : List DieOutcome}
    (h : perform t.evaluate s = (.ok (value, dice), s')) : value.Rounded := by
  cases t with
  | dice d =>
    obtain ⟨outcome, u, -, made⟩ := perform_bind_ok_iff.1 h
    cases made
    exact Double.rounded_ofRat _
  | number n =>
    cases h
    exact Double.rounded_ofRat _
  | group inner => exact Formula.rounded_of_evaluateFrom inner h
  | call function argument =>
    obtain ⟨⟨inner, dice⟩, u, evaluated, made⟩ := perform_bind_ok_iff.1 h
    cases made
    exact function.rounded_apply (Formula.rounded_of_evaluateFrom argument evaluated)
  | operator op => cases h
  | _ =>
    -- a variable that was left counts as zero
    cases h
    exact Double.fits_zero

end

/-! ## Computations that differ in the signs of zeros -/

/-- Both fail with the same error, or both succeed with values that are related. -/
inductive Alike {ε α β : Type} (R : α → β → Prop) : Except ε α → Except ε β → Prop
  | ok {a : α} {b : β} (h : R a b) : Alike R (.ok a) (.ok b)
  | error (e : ε) : Alike R (.error e) (.error e)

theorem Alike.split {ε α β : Type} {R : α → β → Prop} {x : Except ε α} {y : Except ε β}
    (h : Alike R x y) :
    (∃ e, x = .error e ∧ y = .error e) ∨ ∃ a b, x = .ok a ∧ y = .ok b ∧ R a b := by
  cases h with
  | ok related => exact Or.inr ⟨_, _, rfl, rfl, related⟩
  | error e => exact Or.inl ⟨e, rfl, rfl⟩

theorem Alike.bind {ε α β γ δ : Type} {R : α → β → Prop} {S : γ → δ → Prop} {x : Except ε α}
    {y : Except ε β} {f : α → Except ε γ} {g : β → Except ε δ} (h : Alike R x y)
    (h' : ∀ a b, R a b → Alike S (f a) (g b)) : Alike S (x >>= f) (y >>= g) := by
  cases h with
  | ok related => exact h' _ _ related
  | error e => exact .error e

/-- From every state, the results are alike and the states behind are the same. -/
def PerformAlike {ε s α β : Type} (R : α → β → Prop) (x : ExceptT ε (StateM s) α)
    (y : ExceptT ε (StateM s) β) : Prop :=
  ∀ t, Alike R (perform x t).1 (perform y t).1 ∧ (perform x t).2 = (perform y t).2

theorem PerformAlike.bind {ε s α β γ δ : Type} {R : α → β → Prop} {S : γ → δ → Prop}
    {x : ExceptT ε (StateM s) α} {y : ExceptT ε (StateM s) β} {f : α → ExceptT ε (StateM s) γ}
    {g : β → ExceptT ε (StateM s) δ} (h : PerformAlike R x y)
    (h' : ∀ a b, R a b → PerformAlike S (f a) (g b)) : PerformAlike S (x >>= f) (y >>= g) := by
  intro t
  obtain ⟨results, states⟩ := h t
  rcases first : perform x t with ⟨x', u⟩
  rcases second : perform y t with ⟨y', u'⟩
  rw [first, second] at results states
  obtain rfl : u = u' := states
  rw [perform_bind, perform_bind, first, second]
  cases results with
  | ok related => exact h' _ _ related u
  | error e => exact ⟨.error e, rfl⟩

/-- Values that are the same number, with the same dice. -/
def SameValue (x y : Double × List DieOutcome) : Prop := x.1.SameNumber y.1 ∧ x.2 = y.2

theorem PerformAlike.value {σ : Type} {x y : Double × List DieOutcome} (h : SameValue x y) :
    PerformAlike SameValue (pure x : Rolling σ _) (pure y) :=
  fun _ => ⟨.ok h, rfl⟩

theorem PerformAlike.refl {σ : Type} (x : Rolling σ (Double × List DieOutcome)) :
    PerformAlike SameValue x x := by
  intro s
  refine ⟨?_, rfl⟩
  cases (perform x s).1 with
  | error e => exact .error e
  | ok r => exact .ok ⟨.refl _, rfl⟩

/-- The same but for signs of zeros. -/
structure SamePartial (p q : Partial) : Prop where
  sum : p.sum.SameNumber q.sum
  product : p.product.SameNumber q.product
  subtracted : p.subtracted = q.subtracted
  pending : p.pending = q.pending

theorem Double.SameNumber.apply {x y : Double} (h : x.SameNumber y) (function : MathFunction) :
    (function.apply x).SameNumber (function.apply y) := by
  cases function with
  | floor => exact h.roundWith (by decide +kernel)
  | ceil => exact h.roundWith (by decide +kernel)
  | round => exact h.roundWith (by decide +kernel)
  | abs => exact h.abs

namespace SamePartial

theorem refl (p : Partial) : SamePartial p p := ⟨.refl _, .refl _, rfl, rfl⟩

variable {p q : Partial}

theorem total (h : SamePartial p q) : p.total.SameNumber q.total := by
  unfold Partial.total
  rw [h.subtracted]
  exact h.sum.add ((Double.SameNumber.refl _).mul h.product)

theorem push {x y : Double} (h : SamePartial p q) (same : x.SameNumber y) :
    Alike SamePartial (p.push x) (q.push y) := by
  unfold Partial.push
  rw [h.pending]
  cases q.pending with
  | none => exact .ok ⟨h.sum, same, h.subtracted, rfl⟩
  | some op =>
    cases op with
    | add => exact .ok ⟨h.total, same, rfl, rfl⟩
    | subtract => exact .ok ⟨h.total, same, rfl, rfl⟩
    | multiply => exact .ok ⟨h.sum, h.product.mul same, h.subtracted, rfl⟩
    | divide =>
      simp only [same.isZero_eq]
      cases zero : y.isZero with
      | true => exact .error _
      | false =>
        have nonzero := same.isZero_eq.trans zero
        exact .ok ⟨h.sum, h.product.div same nonzero, h.subtracted, rfl⟩

end SamePartial

section

variable (σ : Type) [Roller σ]

/-- Terms that come to the same behind whatever comes to the same. -/
def SameTerms (ts us : List Term) : Prop :=
  ∀ p q, SamePartial p q → PerformAlike SameValue
    (Formula.evaluateFrom p ts : Rolling σ _) (Formula.evaluateFrom q us)

/-- Terms that come to the same wherever they stand. -/
def SameTerm (t u : Term) : Prop := ∀ ts us, SameTerms σ ts us → SameTerms σ (t :: ts) (u :: us)

variable {σ}

theorem SameTerms.nil : SameTerms σ [] [] := fun _ _ h => .value ⟨h.total, rfl⟩

theorem SameTerm.operator (op : Operator) : SameTerm σ (.operator op) (.operator op) :=
  fun _ _ same p q h => same { p with pending := some op } { q with pending := some op }
    ⟨h.sum, h.product, h.subtracted, rfl⟩

/-- Operands of the same value come to the same wherever they stand. -/
theorem SameTerm.operand {t u : Term} (left : ∀ op, t ≠ .operator op)
    (right : ∀ op, u ≠ .operator op)
    (same : PerformAlike SameValue (t.evaluate : Rolling σ _) u.evaluate) : SameTerm σ t u := by
  intro ts us behind p q h
  rw [Formula.evaluateFrom_operand left, Formula.evaluateFrom_operand right]
  refine same.bind ?_
  rintro ⟨x, dice⟩ ⟨y, _⟩ ⟨numbers, rfl⟩
  refine PerformAlike.bind (R := SamePartial) (fun _ => ⟨h.push numbers, rfl⟩) fun p' q' h' => ?_
  refine (behind p' q' h').bind ?_
  rintro ⟨total, more⟩ ⟨total', _⟩ ⟨totals, rfl⟩
  exact .value ⟨totals, rfl⟩

end

end Tabletop
