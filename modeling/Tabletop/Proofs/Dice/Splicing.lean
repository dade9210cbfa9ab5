import Mathlib
import Tabletop.Proofs.Dice.Exactness
import Tabletop.Proofs.Dice.Parentheses
import Tabletop.Proofs.Formula.Composition
/-!
# Formulas that are added

A formula is added to another one either as it is, behind a plus, or as what a variable behind a
plus is bound to. In the one case its products are added to the others one by one, in the other case
they are added up first. With exact numbers both come to the same, and so they do with doubles where
every number that comes up is one. The variables of the formula make a difference: they are not
replaced in the other case, and count as zero.
-/

namespace Tabletop

namespace Formula

/-! ## The shape of sums -/

theorem continues_append {ts us : List Term} (h : continues ts = true) (h' : continues us = true) :
    continues (ts ++ us) = true := by
  match ts with
  | [] => exact h'
  | .operator op :: t :: ts =>
    obtain ⟨operand, more⟩ := Bool.and_eq_true_iff.1 h
    exact Bool.and_eq_true_iff.2 ⟨operand, continues_append more h'⟩

theorem nested_append (ts us : List Term) : nested (ts ++ us) = nested ts ++ nested us := by
  induction ts with
  | nil => rfl
  | cons t ts ih => rw [List.cons_append, nested, nested, ih, List.append_assoc]

theorem paths_append (ts us : List Term) : paths (ts ++ us) = paths ts ++ paths us := by
  induction ts with
  | nil => rfl
  | cons t ts ih => rw [List.cons_append, paths, paths, ih, List.append_assoc]

theorem paths_sum (fs : List Formula) : paths (sum fs) = fs.flatMap paths := by
  match fs with
  | [] => rfl
  | [f] => rw [sum_singleton, List.flatMap_singleton]
  | f :: g :: fs =>
    rw [sum_cons_cons, paths_append, List.flatMap_cons, ← paths_sum (g :: fs)]
    rfl

theorem Evaluable.add {f g : Formula} (h : Evaluable f) (h' : Evaluable g) :
    Evaluable (f ++ .operator .add :: g) := by
  obtain ⟨alternating, inside⟩ := h
  obtain ⟨alternating', inside'⟩ := h'
  cases f with
  | nil => cases alternating
  | cons t ts =>
    cases g with
    | nil => cases alternating'
    | cons u us =>
      obtain ⟨operand, continuing⟩ := Bool.and_eq_true_iff.1 alternating
      refine ⟨Bool.and_eq_true_iff.2 ⟨operand, continues_append continuing alternating'⟩, ?_⟩
      rw [nested_append]
      refine List.forall_mem_append.2 ⟨inside, List.forall_mem_append.2 ⟨?_, inside'⟩⟩
      exact List.forall_mem_singleton.2 trivial

theorem Evaluable.spliced {f : Formula} (h : Evaluable f) : Evaluable [f.spliced] := by
  match f with
  | [] => cases h.alternating
  | [t] => exact h
  | t :: u :: ts =>
    refine ⟨rfl, List.forall_mem_append.2 ⟨List.forall_mem_cons.2 ?_, List.forall_mem_nil _⟩⟩
    exact ⟨h.alternating, h.inside⟩

/-! ## Exact sums -/

section

variable {σ : Type} [Roller σ] {admits : ℚ → Bool}

theorem exactSplit_add {ts : List Term} (continuing : continues ts = true) (g : Formula) :
    (exactSplit admits (ts ++ .operator .add :: g) : _ × List (Product (Exactly σ _))) =
      ((exactSplit admits ts).1, (exactSplit admits ts).2 ++ exactProducts admits g) := by
  match ts with
  | [] => cases g <;> rfl
  | .operator op :: t :: ts =>
    obtain ⟨-, more⟩ := Bool.and_eq_true_iff.1 continuing
    have behind := exactSplit_add more g
    cases op with
    | _ => simp only [List.cons_append, exactSplit, behind]

theorem exactProducts_add {f : Formula} (alternating : alternates f = true) (g : Formula) :
    (exactProducts admits (f ++ .operator .add :: g) : List (Product (Exactly σ _))) =
      exactProducts admits f ++ exactProducts admits g := by
  cases f with
  | nil => cases alternating
  | cons t ts =>
    obtain ⟨-, continuing⟩ := Bool.and_eq_true_iff.1 alternating
    rw [List.cons_append, exactProducts, exactSplit_add continuing]
    rfl

omit [Roller σ] in
theorem addExactly_append (sum : ℚ) (ps qs : List (Product (Exactly σ (ℚ × List DieOutcome)))) :
    addExactly admits sum (ps ++ qs) = do
      let (value, dice) ← addExactly admits sum ps
      let (result, more) ← addExactly admits value qs
      return (result, dice ++ more) := by
  induction ps generalizing sum with
  | nil => simp only [List.nil_append, addExactly, pure_bind, Prod.mk.eta, bind_pure]
  | cons p ps ih =>
    simp only [List.cons_append, addExactly, ih, bind_assoc, pure_bind, List.append_assoc]

omit [Roller σ] in
/-- A number that is added at the end can as well be added first. -/
theorem addExactly_shift (first sum : ℚ)
    (ps : List (Product (Exactly σ (ℚ × List DieOutcome)))) :
    addExactly anyNumber (first + sum) ps = do
      let (value, dice) ← addExactly anyNumber sum ps
      return (first + value, dice) := by
  induction ps generalizing sum with
  | nil => simp only [addExactly, pure_bind]
  | cons p ps ih =>
    have shifted (value : ℚ) : (if p.subtracted then first + sum - value else first + sum + value) =
        first + if p.subtracted then sum - value else sum + value := by
      split
      · ring
      · ring
    have admitted (q : ℚ) : (require anyNumber q : Exactly σ ℚ) = pure q := rfl
    simp only [addExactly, admitted, shifted, ih, bind_assoc, pure_bind]

/-- The exact value of a sum is the sum of the exact values. -/
theorem exactly_add {f : Formula} (alternating : alternates f = true) (g : Formula) :
    (exactly anyNumber (f ++ .operator .add :: g) : Exactly σ _) = do
      let (value, dice) ← exactly anyNumber f
      let (result, more) ← exactly anyNumber g
      return (value + result, dice ++ more) := by
  rw [exactly, exactProducts_add alternating, addExactly_append]
  refine bind_congr fun (value, dice) => ?_
  have shifted :=
    addExactly_shift value 0 (exactProducts anyNumber g : List (Product (Exactly σ _)))
  rw [add_zero] at shifted
  simp only [shifted, exactly, bind_assoc, pure_bind]

theorem exactly_spliced {f : Formula} (alternating : alternates f = true) :
    (exactly anyNumber [f.spliced] : Exactly σ _) = exactly anyNumber f := by
  have single (t : Term) : (exactly anyNumber [t] : Exactly σ _) = t.exactly anyNumber := by
    have admitted (q : ℚ) : (require anyNumber q : Exactly σ ℚ) = pure q := rfl
    simp only [exactly, exactProducts, exactSplit, addExactly, Product.exactly, multiplyExactly,
      admitted, pure_bind, List.append_nil, Bool.false_eq_true, if_false, zero_add,
      Prod.mk.eta, bind_pure]
  match f with
  | [] => cases alternating
  | [t] => rfl
  | t :: u :: ts => exact single (.group (t :: u :: ts))

end

end Formula

/-! ## Variables that are bound to nothing -/

section

variable {σ : Type} [Roller σ] {admits : ℚ → Bool}

theorem Formula.exactSplit_operand {t : Term} (operand : ∀ op, t ≠ .operator op) (ts : List Term) :
    (Formula.exactSplit admits (t :: ts) : _ × List (Product (Exactly σ _))) = ([], []) := by
  cases t with
  | operator op => exact absurd rfl (operand op)
  | _ => rfl

mutual

theorem Term.exactly_of_substitute_empty (t : Term) {u : Term} (h : t.substitute ∅ = .ok u) :
    (u.exactly admits : Exactly σ _) = t.exactly admits := by
  match t with
  | .variable path =>
    cases h
    simp only [Term.exactly, Int.cast_zero]
  | .group inner =>
    obtain ⟨inner', substituted, made⟩ := bind_eq_ok_iff.1 h
    cases made
    rw [Term.exactly, Term.exactly, Formula.exactProducts_of_substitute_empty inner substituted]
  | .call function argument =>
    obtain ⟨argument', substituted, made⟩ := bind_eq_ok_iff.1 h
    cases made
    rw [Term.exactly, Term.exactly, Formula.exactProducts_of_substitute_empty argument substituted]
  | .dice _ | .number _ | .operator _ =>
    cases h
    rfl

theorem Formula.exactProducts_of_substitute_empty (f : List Term) {g : List Term}
    (h : Formula.substitute ∅ f = .ok g) :
    (Formula.exactProducts admits g : List (Product (Exactly σ _))) =
      Formula.exactProducts admits f := by
  match f with
  | [] =>
    cases h
    rfl
  | t :: ts =>
    obtain ⟨u, first, h⟩ := bind_eq_ok_iff.1 h
    obtain ⟨us, rest, made⟩ := bind_eq_ok_iff.1 h
    cases made
    rw [Formula.exactProducts, Formula.exactProducts, t.exactly_of_substitute_empty first,
      Formula.exactSplit_of_substitute_empty ts rest]

/-- A variable has the exact value that an unbound one is replaced by. -/
theorem Formula.exactSplit_of_substitute_empty (ts : List Term) {us : List Term}
    (h : Formula.substitute ∅ ts = .ok us) :
    (Formula.exactSplit admits us : _ × List (Product (Exactly σ _))) =
      Formula.exactSplit admits ts := by
  match ts with
  | [] =>
    cases h
    rfl
  | [.operator op] =>
    cases h
    rfl
  | .operator op :: t :: ts =>
    obtain ⟨_, operator, h⟩ := bind_eq_ok_iff.1 h
    obtain ⟨_, h, made⟩ := bind_eq_ok_iff.1 h
    obtain ⟨u, first, h⟩ := bind_eq_ok_iff.1 h
    obtain ⟨us, rest, made'⟩ := bind_eq_ok_iff.1 h
    cases operator
    cases made'
    cases made
    have here := t.exactly_of_substitute_empty first
    have behind := Formula.exactSplit_of_substitute_empty ts rest
    cases op with
    | _ => simp only [Formula.exactSplit, here, behind]
  | .dice d :: ts | .number n :: ts | .variable path :: ts | .group inner :: ts
  | .call function argument :: ts =>
    obtain ⟨u, first, h⟩ := bind_eq_ok_iff.1 h
    obtain ⟨us, rest, made⟩ := bind_eq_ok_iff.1 h
    cases made
    have operand : ∀ op, u ≠ .operator op := by
      refine Term.substitute_ne_operator ?_ first
      exact nofun
    rw [Formula.exactSplit_operand operand]
    rfl

end

end

/-! ## Sums with their variables replaced -/

/-- A path that is bound to the text of a formula stands for that formula. -/
theorem Bindings.formula_of_parse {b : Bindings} {path text : String} {f : Formula}
    (bound : b.get? path = some text) (parsed : Formula.parse text = .ok f) :
    b.formula path = .ok f := by
  have read := Formula.readAll_of_isFormula (Formula.isFormula_trimChars parsed)
  unfold Bindings.formula
  rw [bound, Option.getD_some]
  split
  · next blank =>
    rw [blank] at read
    cases read
  · next c body found =>
    rw [found] at read
    split
    · next n spelled => rw [Formula.eq_number_of_readInteger? spelled read]
    · exact read

namespace Formula

theorem substitute_add (b : Bindings) (f g : Formula) :
    substitute b (f ++ .operator .add :: g) = do
      let f ← substitute b f
      let g ← substitute b g
      return f ++ .operator .add :: g := by
  induction f with
  | nil => rfl
  | cons t ts ih => simp only [List.cons_append, substitute, ih, bind_assoc, pure_bind]

/-- What comes of a sum can be evaluated if what comes of each formula can. -/
theorem evaluable_of_substitute_sum {b : Bindings} {fs : List Formula} {g : Formula}
    (h : substitute b (sum fs) = .ok g) (some : fs ≠ [])
    (each : ∀ f ∈ fs, ∀ g, substitute b f = .ok g → Evaluable g) : Evaluable g := by
  match fs with
  | [f] =>
    rw [sum_singleton] at h
    exact each f (List.mem_singleton_self f) g h
  | f :: f' :: fs =>
    obtain ⟨first, others⟩ := List.forall_mem_cons.1 each
    rw [sum_cons_cons, substitute_add] at h
    obtain ⟨g₁, here, h⟩ := bind_eq_ok_iff.1 h
    obtain ⟨g₂, behind, made⟩ := bind_eq_ok_iff.1 h
    cases made
    have rest := evaluable_of_substitute_sum behind (List.cons_ne_nil f' fs) others
    exact (first g₁ here).add rest

theorem evaluable_of_substitute_variable {b : Bindings} {path : String} {g : Formula}
    (h : substitute b [.variable path] = .ok g) : Evaluable g := by
  rw [substitute, Term.substitute_variable] at h
  cases bound : b.formula path with
  | error e =>
    rw [bound] at h
    cases h
  | ok f =>
    rw [bound] at h
    cases h
    exact (Bindings.evaluable_formula bound).spliced

end Formula

/-! ## Exact evaluations -/

/-- The outcome without the text of its formula. -/
def EvaluatedRoll.bare (r : EvaluatedRoll) : EvaluatedRoll := { r with formula := "" }

namespace Formula

/-- The outcome that an exact value is rounded down to, without a text. -/
def floored (v : ℚ × List DieOutcome) : EvaluatedRoll := ⟨"", clampInteger v.1.floor, v.2⟩

section

variable {σ : Type} [Roller σ] {f g : Formula} {b : Bindings}

/-- The exact value of a formula with its variables replaced by what is bound to them. -/
def evaluateExactly (admits : ℚ → Bool) (f : Formula) (b : Bindings) :
    Exactly σ (ℚ × List DieOutcome) := do
  let resolved ← (substitute b f).mapError ExactError.formula
  exactly admits resolved

/-- The pass over the formula comes to its exact value where all numbers are doubles. -/
abbrev PassTracks (σ : Type) [Roller σ] (f : Formula) : Prop :=
  OperandTracks (evaluateFrom Partial.start f : Rolling σ _) (exactly Double.isDouble f)

/-- An evaluation tracks the exact one if the pass over the replaced formula does. -/
theorem tracks_evaluate (passes : ∀ g, substitute b f = .ok g → PassTracks σ g) :
    Tracks .formula (fun r v => r.bare = floored v) (evaluate f b : Rolling σ _)
      (evaluateExactly Double.isDouble f b) := by
  unfold evaluate evaluateExactly
  cases substituted : substitute b f with
  | error e => exact .throw e
  | ok g =>
    refine (passes g substituted).bind_left ?_
    rintro ⟨x, dice⟩ ⟨q, _⟩ ⟨represents, rfl⟩
    refine .pure ?_
    rw [floored, ← represents.toInteger_floor]
    rfl

theorem refines_evaluateExactly {admits wider : ℚ → Bool}
    (wide : ∀ q, admits q = true → wider q = true) (f : Formula) (b : Bindings) :
    Refines (evaluateExactly wider f b : Exactly σ _) (evaluateExactly admits f b) := by
  unfold evaluateExactly
  cases substitute b f with
  | error e => exact .throw (ExactError.formula e)
  | ok g => exact refines_exactly wide g

/-! ## Evaluations of sums -/

/-- Terms behind others can be exchanged for terms that are evaluated alike from everywhere. -/
theorem evaluateFrom_append
    (same : ∀ p, (evaluateFrom p f : Rolling σ _) = evaluateFrom p g) (ts : List Term)
    (p : Partial) : (evaluateFrom p (ts ++ f) : Rolling σ _) = evaluateFrom p (ts ++ g) := by
  induction ts generalizing p with
  | nil => exact same p
  | cons t ts ih =>
    rcases t.operator_or_operand with ⟨op, rfl⟩ | operand
    · exact ih { p with pending := some op }
    · simp only [List.cons_append, evaluateFrom_operand operand, ih]

theorem exactly_add_of_substitute_empty {base : Formula} (alternating : alternates base = true)
    (zeroed : substitute ∅ f = .ok g) (admits : ℚ → Bool) :
    (exactly admits (base ++ .operator .add :: g) : Exactly σ _) =
      exactly admits (base ++ .operator .add :: f) := by
  rw [exactly, exactly, exactProducts_add alternating, exactProducts_add alternating,
    exactProducts_of_substitute_empty f zeroed]

/-- The variables of a formula that is added count as zero where they are bound to nothing. -/
theorem passTracks_add_of_substitute_empty {base : Formula} (h : Evaluable base)
    (h' : Evaluable f) (zeroed : substitute ∅ f = .ok g) :
    PassTracks σ (base ++ .operator .add :: g) := by
  have pass (p : Partial) : (evaluateFrom p (.operator .add :: g) : Rolling σ _) =
      evaluateFrom p (.operator .add :: f) :=
    (evaluateFrom_of_substitute_empty f zeroed { p with pending := some .add }).symm
  unfold PassTracks
  rw [evaluateFrom_append pass, exactly_add_of_substitute_empty h.alternating zeroed]
  exact tracks_exactly (h.add h')

/-- With exact numbers a variable that a formula is bound to and the formula itself, its own
variables being bound to nothing, come to the same when they are added. -/
theorem evaluateExactly_add {base : Formula} {b b' : Bindings} {path : String}
    (same : substitute b base = substitute b' base)
    (evaluable : ∀ g, substitute b' base = .ok g → Evaluable g) (bound : b.formula path = .ok f)
    (unbound : ∀ path ∈ paths f, b'.get? path = none) :
    (evaluateExactly anyNumber (base ++ [.operator .add, .variable path]) b : Exactly σ _) =
      evaluateExactly anyNumber (base ++ .operator .add :: f) b' := by
  obtain ⟨g, zeroed⟩ := exists_substitute_empty f
  have written : substitute b' f = .ok g := (substitute_congr f unbound).trans zeroed
  have spliced_in : substitute b [.variable path] = .ok [f.spliced] := by
    rw [substitute, Term.substitute_variable, bound]
    rfl
  have alternating := (Bindings.evaluable_formula bound).alternating
  unfold evaluateExactly
  rw [substitute_add, substitute_add, same, spliced_in, written]
  cases substituted : substitute b' base with
  | error e => rfl
  | ok base' =>
    have shape := (evaluable base' substituted).alternating
    change exactly anyNumber (base' ++ .operator .add :: [f.spliced]) =
      exactly anyNumber (base' ++ .operator .add :: g)
    rw [exactly_add_of_substitute_empty shape zeroed, exactly_add shape, exactly_add shape,
      exactly_spliced alternating]

end

end Formula

end Tabletop
