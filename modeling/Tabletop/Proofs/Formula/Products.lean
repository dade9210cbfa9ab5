import Mathlib
import Tabletop.Proofs.Dice.Precedence
import Tabletop.Proofs.Dice.Sources
import Tabletop.Proofs.Formula.CritDice
/-!
# Products without their constants

A formula as its products: operands joined by `*` and `/`, each product behind the first with its
sign. Taking the constants away from a formula looks at a sign and the operand behind it. Where the
product goes on behind a constant, its other factors are left, and go on with the product before.
-/

namespace Tabletop

section

variable {α β : Type}

def Factor.map (f : α → β) : Factor α → Factor β
  | .times operand => .times (f operand)
  | .over divisor => .over (f divisor)

def Product.map (f : α → β) (p : Product α) : Product β :=
  ⟨p.subtracted, f p.first, p.factors.map (·.map f)⟩

/-- The product with more factors at its end. -/
def Product.extend (p : Product α) (factors : List (Factor α)) : Product α :=
  { p with factors := p.factors ++ factors }

theorem Product.extend_nil (p : Product α) : p.extend [] = p := by
  simp only [extend, List.append_nil]

theorem Product.extend_cons (p : Product α) (factor : Factor α) (factors : List (Factor α)) :
    p.extend (factor :: factors) = (p.extend [factor]).extend factors := by
  simp only [extend, List.append_assoc, List.singleton_append]

end

/-- A factor with the operator before it. -/
def Factor.terms : Factor Term → List Term
  | .times operand => [.operator .multiply, operand]
  | .over divisor => [.operator .divide, divisor]

namespace Product

def operands (p : Product Term) : List Term := p.first :: p.factors.flatMap Factor.terms

/-- A product with its sign. -/
def terms (p : Product Term) : List Term :=
  .operator (if p.subtracted then .subtract else .add) :: p.operands

/-- Whether the product starts with a constant or a variable. -/
def startsConstant (p : Product Term) : Bool := p.first.isConstant

/-- Whether the product is nothing but a constant or a variable. -/
def isConstant (p : Product Term) : Bool := p.startsConstant && p.factors.isEmpty

/-- A product and those behind it, when each of those that starts with a constant loses its sign and
this constant, and what is left of it goes on with the product before. -/
def absorb (p : Product Term) : List (Product Term) → List (Product Term)
  | [] => [p]
  | q :: qs => if q.startsConstant then (p.extend q.factors).absorb qs else p :: q.absorb qs

end Product

namespace Formula

/-- Terms behind an operand as the factors that go on with its product, and the products behind
that one. -/
def chain : List Term → List (Factor Term) × List (Product Term)
  | .operator op :: t :: ts =>
    let (factors, products) := chain ts
    match op with
    | .add => ([], ⟨false, t, factors⟩ :: products)
    | .subtract => ([], ⟨true, t, factors⟩ :: products)
    | .multiply => (.times t :: factors, products)
    | .divide => (.over t :: factors, products)
  | _ => ([], [])

/-- The products of a formula. -/
def toProducts : Formula → List (Product Term)
  | [] => []
  | t :: ts => ⟨false, t, (chain ts).1⟩ :: (chain ts).2

/-- Products as a formula; the first one has no sign. -/
def ofProducts : List (Product Term) → Formula
  | [] => []
  | p :: ps => p.operands ++ ps.flatMap Product.terms

theorem chain_terms (ts : List Term) (continuing : continues ts = true) :
    (chain ts).1.flatMap Factor.terms ++ (chain ts).2.flatMap Product.terms = ts := by
  match ts with
  | [] => rfl
  | .operator op :: t :: ts =>
    obtain ⟨-, more⟩ := Bool.and_eq_true_iff.1 continuing
    have behind := chain_terms ts more
    cases op with
    | add | subtract | multiply | divide =>
      simpa [chain, Factor.terms, Product.terms, Product.operands] using behind

/-- The products of a formula are all of it. -/
theorem ofProducts_toProducts {f : Formula} (h : alternates f = true) :
    ofProducts (toProducts f) = f := by
  cases f with
  | nil => cases h
  | cons t ts =>
    obtain ⟨-, continuing⟩ := Bool.and_eq_true_iff.1 h
    exact congrArg (t :: ·) (chain_terms ts continuing)

section

variable {σ : Type} [Roller σ]

theorem split_eq_chain (ts : List Term) (continuing : continues ts = true) :
    (split ts : List (Factor (Rolling σ (Double × List DieOutcome))) × _) =
      ((chain ts).1.map (·.map Term.byPrecedence), (chain ts).2.map (·.map Term.byPrecedence)) := by
  match ts with
  | [] => rfl
  | .operator op :: t :: ts =>
    obtain ⟨-, more⟩ := Bool.and_eq_true_iff.1 continuing
    have behind := split_eq_chain ts more
    cases op with
    | add | subtract | multiply | divide => simp only [split, chain, behind]; rfl

/-- What is evaluated by precedence are these products. -/
theorem products_eq_toProducts {f : Formula} (h : alternates f = true) :
    (products f : List (Product (Rolling σ (Double × List DieOutcome)))) =
      (toProducts f).map (·.map Term.byPrecedence) := by
  cases f with
  | nil => cases h
  | cons t ts =>
    obtain ⟨-, continuing⟩ := Bool.and_eq_true_iff.1 h
    rw [products, split_eq_chain ts continuing]
    rfl

end

/-! ## What is left of the products -/

/-- In the middle of a formula the product that is being built goes on with what is left behind it.
The induction is on the pairs of an operator and an operand. -/
theorem chain_diceOnly (ts : List Term) (continuing : continues ts = true) (p : Product Term) :
    p.extend (chain (diceOnly ts)).1 :: (chain (diceOnly ts)).2 =
      (p.extend (chain ts).1).absorb (chain ts).2 := by
  match ts with
  | [] => rfl
  | .operator op :: t :: ts =>
    obtain ⟨operand, more⟩ := Bool.and_eq_true_iff.1 continuing
    have behind := chain_diceOnly ts more
    rw [diceOnly, diceOnly_operand operand]
    cases op with
    | add | subtract =>
      cases constant : t.isConstant with
      | true =>
        simpa [Term.isAdditive, chain, Product.absorb, Product.startsConstant, constant,
          Product.extend_nil] using behind p
      | false =>
        -- the product of `t` begins anew, with no factors yet
        have begun (subtracted : Bool) := behind ⟨subtracted, t, []⟩
        simpa [Term.isAdditive, chain, Product.absorb, Product.startsConstant, constant,
          Product.extend] using begun _
    | multiply | divide =>
      -- only a sign is taken away with the constant behind it
      simp only [Term.isAdditive, Bool.false_and, if_neg Bool.false_ne_true, chain]
      rw [Product.extend_cons, Product.extend_cons p _ (chain ts).1]
      exact behind _

/-- The products that are left. -/
theorem toProducts_diceOnly {t : Term} {ts : List Term} (h : alternates (t :: ts) = true) :
    toProducts (diceOnly (t :: ts)) =
      (⟨false, t, (chain ts).1⟩ : Product Term).absorb (chain ts).2 := by
  obtain ⟨operand, continuing⟩ := Bool.and_eq_true_iff.1 h
  rw [diceOnly_operand operand]
  exact chain_diceOnly ts continuing ⟨false, t, []⟩

end Formula

/-! ## When nothing but constants goes -/

namespace Product

/-- The number of operands of products. -/
def size (ps : List (Product Term)) : Nat := sumOf (ps.map (·.factors.length + 1))

theorem length_operands (p : Product Term) : p.operands.length = 2 * p.factors.length + 1 := by
  have factors (fs : List (Factor Term)) :
      (fs.flatMap Factor.terms).length = 2 * fs.length := by
    induction fs with
    | nil => rfl
    | cons factor fs ih =>
      cases factor with
      | _ =>
        simp only [List.flatMap_cons, List.length_append, ih, Factor.terms, List.length_cons,
          List.length_nil]
        omega
  rw [operands, List.length_cons, factors]

theorem length_terms (ps : List (Product Term)) :
    (ps.flatMap terms).length = 2 * size ps := by
  induction ps with
  | nil => rfl
  | cons p ps ih =>
    simp only [List.flatMap_cons, List.length_append, ih, terms, List.length_cons, length_operands,
      size, List.map_cons, sumOf]
    omega

theorem length_ofProducts (p : Product Term) (ps : List (Product Term)) :
    (Formula.ofProducts (p :: ps)).length + 1 = 2 * size (p :: ps) := by
  simp only [Formula.ofProducts, List.length_append, length_operands, length_terms, size,
    List.map_cons, sumOf]
  omega

theorem exists_absorb (p : Product Term) (qs : List (Product Term)) :
    ∃ q rest, p.absorb qs = q :: rest := by
  induction qs generalizing p with
  | nil => exact ⟨p, [], rfl⟩
  | cons q qs ih =>
    rw [absorb]
    split
    · exact ih _
    · exact ⟨p, q.absorb qs, rfl⟩

/-- One operand is lost for each product that starts with a constant. -/
theorem size_absorb (p : Product Term) (qs : List (Product Term)) :
    size (p.absorb qs) + qs.countP startsConstant = size (p :: qs) := by
  induction qs generalizing p with
  | nil => rfl
  | cons q qs ih =>
    rw [absorb]
    split
    case isTrue starts =>
      have rest := ih (p.extend q.factors)
      simp only [size, extend, List.map_cons, sumOf, List.length_append,
        List.countP_cons_of_pos starts] at rest ⊢
      omega
    case isFalse keeps =>
      have rest := ih q
      simp only [size, List.map_cons, sumOf, List.countP_cons_of_neg keeps] at rest ⊢
      omega

theorem size_filter (qs : List (Product Term)) :
    size (qs.filter (!·.isConstant)) + qs.countP isConstant = size qs := by
  induction qs with
  | nil => rfl
  | cons q qs ih =>
    cases lone : q.isConstant with
    | true =>
      have alone : q.factors = [] := List.isEmpty_iff.1 (Bool.and_eq_true_iff.1 lone).2
      simp only [size, List.filter_cons, lone, Bool.not_true, Bool.false_eq_true, if_false,
        List.countP_cons_of_pos, List.map_cons, sumOf, alone, List.length_nil] at ih ⊢
      omega
    | false =>
      simp only [size, List.filter_cons, lone, Bool.not_false, if_true, List.countP_cons,
        Bool.false_eq_true, if_false, List.map_cons, sumOf] at ih ⊢
      omega

/-- A product that starts with a constant is nothing else, or it goes on. -/
theorem countP_startsConstant (qs : List (Product Term)) :
    qs.countP startsConstant =
      qs.countP isConstant + qs.countP fun q => q.startsConstant && !q.factors.isEmpty := by
  induction qs with
  | nil => rfl
  | cons q qs ih =>
    cases starts : q.startsConstant with
    | false => simp [ih, isConstant, starts]
    | true =>
      cases alone : q.factors.isEmpty with
      | _ =>
        simp only [List.countP_cons, ih, isConstant, starts, alone, Bool.and_self, Bool.and_false,
          Bool.not_true, Bool.not_false, Bool.false_eq_true, if_true, if_false]
        omega

theorem absorb_of_lone (p : Product Term) {qs : List (Product Term)}
    (lone : ∀ q ∈ qs, q.startsConstant = true → q.factors = []) :
    p.absorb qs = p :: qs.filter (!·.isConstant) := by
  induction qs generalizing p with
  | nil => rfl
  | cons q qs ih =>
    obtain ⟨here, others⟩ := List.forall_mem_cons.1 lone
    cases starts : q.startsConstant with
    | true =>
      have constant : q.isConstant = true := by simp [isConstant, starts, here starts]
      rw [absorb, if_pos starts, here starts, extend_nil, ih p others,
        List.filter_cons_of_neg (by simp [constant])]
    | false =>
      have kept : q.isConstant = false := by simp [isConstant, starts]
      rw [absorb, starts, if_neg Bool.false_ne_true, ih q others,
        List.filter_cons_of_pos (by simp [kept])]

/-- Exactly the lone constants go if no other product starts with a constant. -/
theorem ofProducts_absorb_iff (p : Product Term) (qs : List (Product Term)) :
    Formula.ofProducts (p.absorb qs) = Formula.ofProducts (p :: qs.filter (!·.isConstant)) ↔
      ∀ q ∈ qs, q.startsConstant = true → q.factors = [] := by
  constructor
  · intro same
    obtain ⟨r, rs, absorbed⟩ := exists_absorb p qs
    have left := size_absorb p qs
    have right := size_filter qs
    have lengths := length_ofProducts p (qs.filter (!·.isConstant))
    rw [← same, absorbed, length_ofProducts, ← absorbed] at lengths
    simp only [size, List.map_cons, sumOf] at left right lengths
    have none : qs.countP (fun q => q.startsConstant && !q.factors.isEmpty) = 0 := by
      have counted := countP_startsConstant qs
      omega
    intro q mem starts
    have alone := List.countP_eq_zero.1 none q mem
    simpa [starts] using alone
  · intro lone
    rw [absorb_of_lone p lone]

end Product

namespace Formula

/-- What taking the constants away does to the products of a formula. A product that starts with a
constant, other than the first one, loses its sign and this constant, and its other factors go on
with the product before; all other products stay. So the formula is evaluated as these products.
Exactly the lone constants are gone if no other product starts with a constant, and otherwise
something else is left. -/
theorem diceOnly_joins_products {text : String} {f : Formula} (parsed : parse text = .ok f) :
    ∃ first later, toProducts f = first :: later ∧ ofProducts (first :: later) = f ∧
      toProducts (diceOnly f) = first.absorb later ∧ ofProducts (first.absorb later) = diceOnly f ∧
      (∀ (σ : Type) [Roller σ],
        (evaluateFrom Partial.start f : Rolling σ _) =
            addUp (.finite 0) ((first :: later).map (·.map Term.byPrecedence)) ∧
          (evaluateFrom Partial.start (diceOnly f) : Rolling σ _) =
            addUp (.finite 0) ((first.absorb later).map (·.map Term.byPrecedence))) ∧
      (diceOnly f = ofProducts (first :: later.filter (!·.isConstant)) ↔
        ∀ p ∈ later, p.startsConstant = true → p.factors = []) := by
  have whole := evaluable_of_readAll parsed
  cases f with
  | nil => cases whole.alternating
  | cons t ts =>
    have left : Evaluable (diceOnly (t :: ts)) :=
      ⟨alternates_diceOnly whole.alternating,
        fun u mem => whole.inside u (mem_nested_of_diceOnly _ mem)⟩
    have absorbed := toProducts_diceOnly whole.alternating
    have again := ofProducts_toProducts left.alternating
    rw [absorbed] at again
    refine ⟨⟨false, t, (chain ts).1⟩, (chain ts).2, rfl,
      ofProducts_toProducts whole.alternating, absorbed, again, fun σ _ => ⟨?_, ?_⟩, ?_⟩
    · rw [evaluateFrom_start_eq _ whole, products_eq_toProducts whole.alternating]
      rfl
    · rw [evaluateFrom_start_eq _ left, products_eq_toProducts left.alternating, absorbed]
    · rw [← again]
      exact Product.ofProducts_absorb_iff _ _

/-- `2d6 + 3 - @mod + 1d4 / 2 - 5 * 1d8` -/
def manyProducts : Formula :=
  [.dice ⟨2, 6, []⟩, .operator .add, .number 3, .operator .subtract, .variable "mod",
    .operator .add, .dice ⟨1, 4, []⟩, .operator .divide, .number 2, .operator .subtract, .number 5,
    .operator .multiply, .dice ⟨1, 8, []⟩]

/-- Two lone constants go with their signs. The five before the last die goes too, and this die,
which was subtracted, multiplies the product before. -/
theorem manyProducts_joined :
    parse "2d6 + 3 - @mod + 1d4 / 2 - 5 * 1d8" = .ok manyProducts ∧
      toProducts (diceOnly manyProducts) =
        [⟨false, .dice ⟨2, 6, []⟩, []⟩,
          ⟨false, .dice ⟨1, 4, []⟩, [.over (.number 2), .times (.dice ⟨1, 8, []⟩)]⟩] ∧
      render (diceOnly manyProducts) = "2d6 + 1d4 / 2 * 1d8" := by
  have parsed : parse "2d6 + 3 - @mod + 1d4 / 2 - 5 * 1d8" = .ok manyProducts := by cbv
  obtain ⟨first, later, products, -, left, -⟩ := diceOnly_joins_products parsed
  cases products
  exact ⟨parsed, left, rfl⟩

/-- Not only whole constants go: `1d6 + 2 * 1d4`, at most 14, is left as `1d6 * 1d4`, at
most 24, though no product behind the first one is a lone constant. -/
theorem added_product_is_joined :
    (¬∀ (text : String) (f : Formula) (first : Product Term) (later : List (Product Term)),
      parse text = .ok f → toProducts f = first :: later →
        diceOnly f = ofProducts (first :: later.filter (!·.isConstant))) ∧
    (parse "1d6 + 2 * 1d4").map (fun f => render (diceOnly f)) = .ok "1d6 * 1d4" ∧
    (maximize "1d6 + 2 * 1d4" ∅).map (·.total) = .ok 14 ∧
    (maximize "1d6 * 1d4" ∅).map (·.total) = .ok 24 := by
  have parsed : parse "1d6 + 2 * 1d4" = .ok [.dice ⟨1, 6, []⟩, .operator .add, .number 2,
      .operator .multiply, .dice ⟨1, 4, []⟩] :=
    parse_render_of_sound (f := [.dice ⟨1, 6, []⟩, .operator .add, .number 2, .operator .multiply,
      .dice ⟨1, 4, []⟩]) rfl (by decide)
  have joined : parse "1d6 * 1d4" = .ok [.dice ⟨1, 6, []⟩, .operator .multiply,
      .dice ⟨1, 4, []⟩] :=
    parse_render_of_sound (f := [.dice ⟨1, 6, []⟩, .operator .multiply, .dice ⟨1, 4, []⟩]) rfl
      (by decide)
  refine ⟨fun all => ?_, ?_, ?_, ?_⟩
  · have claimed := congrArg List.length (all _ _ _ _ parsed rfl)
    exact absurd claimed (by decide)
  · rw [parsed]
    rfl
  · rw [maximize_eq parsed]
    decide +kernel
  · rw [maximize_eq joined]
    decide +kernel

end Formula

end Tabletop
