import Mathlib
import Tabletop.Proofs.Dice.ExactValue
/-!
# Values that the dice settle

The exact value of a formula depends on the state that its dice are rolled from only by what is
recorded of them. Each term records its outcomes behind those of the terms before it, and always as
many, so two evaluations that record the same have recorded the same for each term.
-/

namespace Tabletop

variable {σ : Type}

/-- So many outcomes are recorded, and where they are the same so is the value. -/
def Settles (count : Nat) (x : Exactly σ (ℚ × List DieOutcome)) : Prop :=
  ∀ s s' v, perform x s = (.ok v, s') → v.2.length = count ∧
    ∀ u u' w, perform x u = (.ok w, u') → w.2 = v.2 → w.1 = v.1

/-- Always as many outcomes are recorded, and they settle the value. -/
def Settled (x : Exactly σ (ℚ × List DieOutcome)) : Prop := ∃ count, Settles count x

namespace Settles

variable {m n : Nat} {x : Exactly σ (ℚ × List DieOutcome)}
  {g : ℚ → Exactly σ (ℚ × List DieOutcome)}

theorem pure (q : ℚ) : Settles 0 (pure (q, []) : Exactly σ _) := by
  intro s s' v h
  cases h
  refine ⟨rfl, fun u u' w h' _ => ?_⟩
  cases h'
  rfl

theorem throw (count : Nat) (e : ExactError) : Settles count (throw e : Exactly σ _) := by
  intro s s' v h
  cases h

theorem map (h : Settles m x) (f : ℚ → ℚ) :
    Settles m (do let (value, dice) ← x; return (f value, dice)) := by
  intro s s' v made
  obtain ⟨⟨value, dice⟩, t, ran, made⟩ := perform_bind_ok_iff.1 made
  cases made
  obtain ⟨length, same⟩ := h _ _ _ ran
  refine ⟨length, fun u u' w made' recorded => ?_⟩
  obtain ⟨⟨value', dice'⟩, t', ran', made'⟩ := perform_bind_ok_iff.1 made'
  cases made'
  exact congrArg f (same _ _ _ ran' recorded)

/-- What is recorded by two steps in a row settles what each of them came to. -/
theorem andThen (first : Settles m x) (second : ∀ value, Settles n (g value)) :
    Settles (m + n) (do
      let (value, dice) ← x
      let (result, more) ← g value
      return (result, dice ++ more)) := by
  intro s s' v made
  obtain ⟨⟨value, dice⟩, t, ran, made⟩ := perform_bind_ok_iff.1 made
  obtain ⟨⟨result, more⟩, u, went, made⟩ := perform_bind_ok_iff.1 made
  cases made
  obtain ⟨length, same⟩ := first _ _ _ ran
  obtain ⟨length', same'⟩ := second value _ _ _ went
  refine ⟨by rw [List.length_append, length, length'], fun t₁ t₂ w made' recorded => ?_⟩
  obtain ⟨⟨value', dice'⟩, u', ran', made'⟩ := perform_bind_ok_iff.1 made'
  obtain ⟨⟨result', more'⟩, u'', went', made'⟩ := perform_bind_ok_iff.1 made'
  cases made'
  have lengths : dice'.length = dice.length := (first _ _ _ ran').1.trans length.symm
  obtain ⟨before, behind⟩ := List.append_inj recorded lengths
  obtain rfl := same _ _ _ ran' before
  exact same' _ _ (result', more') went' behind

end Settles

/-- The operand of a factor is as stated. -/
def Factor.Holds {α : Type} (P : α → Prop) : Factor α → Prop
  | .times operand => P operand
  | .over divisor => P divisor

/-- All operands of a product are as stated. -/
structure Product.Holds {α : Type} (P : α → Prop) (product : Product α) : Prop where
  first : P product.first
  factors : ∀ factor ∈ product.factors, factor.Holds P

theorem settles_multiply {factors : List (Factor (Exactly σ (ℚ × List DieOutcome)))}
    (h : ∀ factor ∈ factors, factor.Holds Settled) :
    ∃ count, ∀ value, Settles count (multiplyExactly anyNumber value factors) := by
  induction factors with
  | nil => exact ⟨0, .pure⟩
  | cons factor factors ih =>
    obtain ⟨here, others⟩ := List.forall_mem_cons.1 h
    obtain ⟨n, rest⟩ := ih others
    match factor with
    | .times operand =>
      obtain ⟨m, settles⟩ := here
      exact ⟨m + n, fun value => settles.andThen fun other => rest (value * other)⟩
    | .over divisor =>
      obtain ⟨m, settles⟩ := here
      refine ⟨m + n, fun value => ?_⟩
      have divided (other : ℚ) : Settles n (if other = 0 then throw (.formula .divisionByZero)
          else multiplyExactly anyNumber (value / other) factors) := by
        split
        · exact .throw n _
        · exact rest (value / other)
      have same : multiplyExactly anyNumber value (.over divisor :: factors) = do
          let (other, dice) ← divisor
          let (result, more) ← (if other = 0 then throw (.formula .divisionByZero)
            else multiplyExactly anyNumber (value / other) factors)
          return (result, dice ++ more) := by
        refine bind_congr fun (other, dice) => ?_
        by_cases zero : other = 0
        · simp only [if_pos zero]
          rfl
        · simp only [if_neg zero]
          rfl
      rw [same]
      exact settles.andThen divided

theorem Product.Holds.settled {product : Product (Exactly σ (ℚ × List DieOutcome))}
    (h : product.Holds Settled) : Settled (product.exactly anyNumber) := by
  obtain ⟨m, first⟩ := h.first
  obtain ⟨n, factors⟩ := settles_multiply h.factors
  exact ⟨m + n, first.andThen factors⟩

theorem settles_add {products : List (Product (Exactly σ (ℚ × List DieOutcome)))}
    (h : ∀ product ∈ products, product.Holds Settled) :
    ∃ count, ∀ sum, Settles count (addExactly anyNumber sum products) := by
  induction products with
  | nil => exact ⟨0, .pure⟩
  | cons product products ih =>
    obtain ⟨here, others⟩ := List.forall_mem_cons.1 h
    obtain ⟨m, first⟩ := here.settled
    obtain ⟨n, rest⟩ := ih others
    exact ⟨m + n, fun sum => first.andThen fun value =>
      rest (if product.subtracted then sum - value else sum + value)⟩

variable [Roller σ]

mutual

theorem Term.settled (t : Term) : Settled (t.exactly anyNumber : Exactly σ _) := by
  match t with
  | .number n => exact ⟨0, .pure n⟩
  | .variable path => exact ⟨0, .pure 0⟩
  | .operator op => exact ⟨0, .throw 0 _⟩
  | .dice d =>
    refine ⟨1, fun s s' v h => ?_⟩
    obtain ⟨outcome, u, -, made⟩ := perform_bind_ok_iff.1 h
    cases made
    refine ⟨rfl, fun t t' w h' recorded => ?_⟩
    obtain ⟨outcome', u', -, made⟩ := perform_bind_ok_iff.1 h'
    cases made
    cases recorded
    rfl
  | .group inner =>
    obtain ⟨count, settles⟩ := settles_add (Formula.settled_exactProducts inner)
    exact ⟨count, settles 0⟩
  | .call function argument =>
    obtain ⟨count, settles⟩ := settles_add (Formula.settled_exactProducts argument)
    exact ⟨count, (settles 0).map function.exact⟩

theorem Formula.settled_exactProducts (f : List Term) :
    ∀ product ∈ (Formula.exactProducts anyNumber f : List (Product (Exactly σ _))),
      product.Holds Settled := by
  match f with
  | [] => exact List.forall_mem_nil _
  | t :: ts =>
    obtain ⟨factors, products⟩ := Formula.settled_exactSplit ts
    exact List.forall_mem_cons.2 ⟨⟨t.settled, factors⟩, products⟩

theorem Formula.settled_exactSplit (ts : List Term) :
    (∀ factor ∈ (Formula.exactSplit anyNumber ts : _ × List (Product (Exactly σ _))).1,
      factor.Holds Settled) ∧
    ∀ product ∈ (Formula.exactSplit anyNumber ts : _ × List (Product (Exactly σ _))).2,
      product.Holds Settled := by
  match ts with
  | .operator op :: t :: ts =>
    obtain ⟨factors, products⟩ := Formula.settled_exactSplit ts
    cases op with
    | add => exact ⟨List.forall_mem_nil _, List.forall_mem_cons.2 ⟨⟨t.settled, factors⟩, products⟩⟩
    | subtract =>
      exact ⟨List.forall_mem_nil _, List.forall_mem_cons.2 ⟨⟨t.settled, factors⟩, products⟩⟩
    | multiply => exact ⟨List.forall_mem_cons.2 ⟨t.settled, factors⟩, products⟩
    | divide => exact ⟨List.forall_mem_cons.2 ⟨t.settled, factors⟩, products⟩
  | [] => exact ⟨List.forall_mem_nil _, List.forall_mem_nil _⟩
  | [.operator op] => cases op <;> exact ⟨List.forall_mem_nil _, List.forall_mem_nil _⟩
  | .dice _ :: _ | .number _ :: _ | .variable _ :: _ | .group _ :: _ | .call _ _ :: _ =>
    exact ⟨List.forall_mem_nil _, List.forall_mem_nil _⟩

end

/-- The exact value of what is added behind an operand. -/
def Formula.exactlyBehind (ts : List Term) : Exactly σ (ℚ × List DieOutcome) :=
  addExactly anyNumber 0 (Formula.exactSplit anyNumber ts).2

/-- Evaluations behind an operand that record the same dice come to the same. -/
theorem Formula.eq_of_recorded (ts : List Term) {s s' u u' : σ} {v w : ℚ × List DieOutcome}
    (h : perform (Formula.exactlyBehind ts) s = (.ok v, s'))
    (h' : perform (Formula.exactlyBehind ts) u = (.ok w, u')) (recorded : w.2 = v.2) :
    w.1 = v.1 := by
  obtain ⟨count, settles⟩ := settles_add (Formula.settled_exactSplit (σ := σ) ts).2
  exact (settles 0 _ _ _ h).2 _ _ _ h' recorded

end Tabletop
