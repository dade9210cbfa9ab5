import Tabletop.Proofs.Dice.Likeness
import Tabletop.Proofs.Dice.Precedence
/-!
# Variables as formulas in parentheses

A variable stands for the formula that is bound to it as if that were written in parentheses. A
bound formula of a single term is put in place without them, so the pass does not add its value to
zero and does not multiply it by one. For rounded numbers that makes no difference but for the sign
of a zero, and no total depends on that.
-/

namespace Tabletop

namespace Formula

/-- A formula in the place of a variable: parentheses around it unless it is a single term. -/
def spliced : Formula → Term
  | [t] => t
  | ts => .group ts

end Formula

/-- The formula that a path is bound to: zero if nothing or a blank text is, an integer as itself,
and otherwise what the text is read as. -/
def Bindings.formula (b : Bindings) (path : String) : Except FormulaError Formula :=
  match Text.trimChars ((b.get? path).getD "").toList with
  | [] => .ok [.number 0]
  | c :: body =>
    match Formula.readInteger? (c :: body) with
    | some n => .ok [.number n]
    | none => Formula.readAll (c :: body)

mutual

/-- Puts bound formulas in parentheses in the place of variables. -/
def Term.parenthesize (b : Bindings) : Term → Except FormulaError Term
  | .variable path => do return .group (← b.formula path)
  | .group inner => do return .group (← Formula.parenthesize b inner)
  | .call function argument => do return .call function (← Formula.parenthesize b argument)
  | t => .ok t

def Formula.parenthesize (b : Bindings) : List Term → Except FormulaError (List Term)
  | [] => .ok []
  | t :: ts => do
    let t ← t.parenthesize b
    return t :: (← Formula.parenthesize b ts)

end

/-- The total of a formula and the dice rolled for it, its variables being formulas in parentheses,
and its products being evaluated before its sums. -/
def Formula.byPrecedence {σ : Type} [Roller σ] (f : Formula) (b : Bindings) :
    Rolling σ (Int × List DieOutcome) := do
  let resolved ← Formula.parenthesize b f
  let (value, dice) ← addUp (.finite 0) (Formula.products resolved)
  return (value.floor.toInteger, dice)

/-! ## Parentheses keep the shape -/

section

variable {b : Bindings}

theorem Bindings.evaluable_formula {path : String} {f : Formula} (h : b.formula path = .ok f) :
    Formula.Evaluable f := by
  have constant (n : Int) : Formula.Evaluable [.number n] :=
    ⟨rfl, List.forall_mem_singleton.2 trivial⟩
  unfold Bindings.formula at h
  split at h
  · cases h
    exact constant 0
  · split at h
    · cases h
      exact constant _
    · exact Formula.evaluable_of_readAll h

theorem Term.isOperand_of_parenthesize {t u : Term} (h : t.parenthesize b = .ok u) :
    u.isOperand = t.isOperand := by
  match t with
  | .variable path =>
    obtain ⟨f, -, made⟩ := bind_eq_ok_iff.1 h
    cases made
    rfl
  | .group inner =>
    obtain ⟨inner', -, made⟩ := bind_eq_ok_iff.1 h
    cases made
    rfl
  | .call function argument =>
    obtain ⟨argument', -, made⟩ := bind_eq_ok_iff.1 h
    cases made
    rfl
  | .dice _ | .number _ | .operator _ =>
    cases h
    rfl

namespace Formula

theorem parenthesize_cons {t : Term} {ts us : List Term} (h : parenthesize b (t :: ts) = .ok us) :
    ∃ v vs, t.parenthesize b = .ok v ∧ parenthesize b ts = .ok vs ∧ us = v :: vs := by
  obtain ⟨v, first, h⟩ := bind_eq_ok_iff.1 h
  obtain ⟨vs, rest, made⟩ := bind_eq_ok_iff.1 h
  cases made
  exact ⟨v, vs, first, rest, rfl⟩

theorem continues_of_parenthesize (ts : List Term) {us : List Term}
    (h : parenthesize b ts = .ok us) (continuing : continues ts = true) : continues us = true := by
  match ts with
  | [] =>
    cases h
    rfl
  | .operator op :: t :: ts =>
    obtain ⟨_, _, first, behind, rfl⟩ := parenthesize_cons h
    obtain ⟨u, us, second, rest, rfl⟩ := parenthesize_cons behind
    cases first
    obtain ⟨operand, more⟩ := Bool.and_eq_true_iff.1 continuing
    rw [continues, Term.isOperand_of_parenthesize second, operand,
      continues_of_parenthesize ts rest more]
    rfl

theorem alternates_of_parenthesize {f g : List Term} (h : parenthesize b f = .ok g)
    (alternating : alternates f = true) : alternates g = true := by
  cases f with
  | nil => cases alternating
  | cons t ts =>
    obtain ⟨u, us, first, rest, rfl⟩ := parenthesize_cons h
    obtain ⟨operand, continuing⟩ := Bool.and_eq_true_iff.1 alternating
    rw [alternates, Term.isOperand_of_parenthesize first, operand,
      continues_of_parenthesize ts rest continuing]
    rfl

end Formula

mutual

theorem Term.evaluable_of_parenthesize (t : Term) {u : Term} (h : t.parenthesize b = .ok u)
    (inside : ∀ v ∈ t.nested, v.Evaluable) : ∀ v ∈ u.nested, v.Evaluable := by
  match t with
  | .variable path =>
    obtain ⟨f, bound, made⟩ := bind_eq_ok_iff.1 h
    cases made
    obtain ⟨alternating, deeper⟩ := Bindings.evaluable_formula bound
    exact List.forall_mem_cons.2 ⟨alternating, deeper⟩
  | .group inner =>
    obtain ⟨inner', resolved, made⟩ := bind_eq_ok_iff.1 h
    cases made
    obtain ⟨alternating, deeper⟩ := List.forall_mem_cons.1 inside
    exact List.forall_mem_cons.2 ⟨Formula.alternates_of_parenthesize resolved alternating,
      Formula.evaluable_of_parenthesize inner resolved deeper⟩
  | .call function argument =>
    obtain ⟨argument', resolved, made⟩ := bind_eq_ok_iff.1 h
    cases made
    obtain ⟨alternating, deeper⟩ := List.forall_mem_cons.1 inside
    exact List.forall_mem_cons.2 ⟨Formula.alternates_of_parenthesize resolved alternating,
      Formula.evaluable_of_parenthesize argument resolved deeper⟩
  | .dice _ | .number _ | .operator _ =>
    cases h
    exact inside

theorem Formula.evaluable_of_parenthesize (f : List Term) {g : List Term}
    (h : Formula.parenthesize b f = .ok g) (inside : ∀ v ∈ Formula.nested f, v.Evaluable) :
    ∀ v ∈ Formula.nested g, v.Evaluable := by
  match f with
  | [] =>
    cases h
    exact inside
  | t :: ts =>
    obtain ⟨u, us, first, rest, rfl⟩ := Formula.parenthesize_cons h
    obtain ⟨here, behind⟩ := List.forall_mem_append.1 inside
    exact List.forall_mem_append.2 ⟨t.evaluable_of_parenthesize first here,
      Formula.evaluable_of_parenthesize ts rest behind⟩

end

end

/-! ## Substitution and parentheses -/

section

variable {σ : Type} [Roller σ]

omit [Roller σ] in
theorem Formula.spliced_ne_operator {f : Formula} (h : alternates f = true) :
    ∀ op, f.spliced ≠ .operator op := by
  match f with
  | [] => exact nofun
  | [t] => exact Term.ne_operator (Bool.and_eq_true_iff.1 h).1
  | t :: u :: ts => exact nofun

/-- Parentheses around a single term change at most the sign of a zero. -/
theorem Formula.spliced_alike {f : Formula} (h : alternates f = true) :
    PerformAlike SameValue (f.spliced.evaluate : Rolling σ _) (Term.group f).evaluate := by
  match f with
  | [] => exact .refl _
  | t :: u :: ts => exact .refl _
  | [t] =>
    obtain ⟨operand, -⟩ := Bool.and_eq_true_iff.1 h
    intro s
    rw [spliced, Term.evaluate, evaluateFrom_operand (Term.ne_operator operand)]
    rcases evaluated : perform t.evaluate s with ⟨e | ⟨value, dice⟩, s'⟩
    · rw [perform_bind_of_error evaluated]
      exact ⟨.error e, rfl⟩
    · rw [perform_bind_of_ok evaluated]
      have rounded := Term.rounded_of_evaluate evaluated
      exact ⟨.ok ⟨(Double.zero_add_one_mul rounded).symm, (List.append_nil dice).symm⟩, rfl⟩

variable (b : Bindings)

omit [Roller σ] in
theorem Term.substitute_variable (path : String) :
    (Term.variable path).substitute b = Formula.spliced <$> b.formula path := by
  unfold Bindings.formula
  rw [Term.substitute]
  cases b.get? path with
  | none => rfl
  | some text =>
    simp only [Formula.boundTerm, Option.getD_some]
    cases Text.trimChars text.toList with
    | nil => rfl
    | cons c body =>
      dsimp only
      cases Formula.readInteger? (c :: body) with
      | some n => rfl
      | none =>
        dsimp only
        rcases Formula.readAll (c :: body) with e | ⟨_ | ⟨t, _ | ⟨u, ts⟩⟩⟩
        · rfl
        · rfl
        · rfl
        · rfl

mutual

theorem Term.substitute_alike (t : Term) :
    Alike (SameTerm σ) (t.substitute b) (t.parenthesize b) := by
  match t with
  | .variable path =>
    rw [Term.substitute_variable, Term.parenthesize]
    cases bound : b.formula path with
    | error e => exact .error e
    | ok f =>
      obtain ⟨alternating, -⟩ := Bindings.evaluable_formula bound
      have operand := Formula.spliced_ne_operator alternating
      exact .ok (.operand operand nofun (Formula.spliced_alike alternating))
  | .group inner =>
    refine (Formula.substitute_alike inner).bind fun g g' same => ?_
    exact .ok (.operand nofun nofun (same Partial.start Partial.start (.refl _)))
  | .call function argument =>
    refine (Formula.substitute_alike argument).bind fun g g' same => ?_
    refine .ok (.operand nofun nofun ?_)
    refine (same Partial.start Partial.start (.refl _)).bind ?_
    rintro ⟨x, dice⟩ ⟨y, _⟩ ⟨numbers, rfl⟩
    exact .value ⟨numbers.apply function, rfl⟩
  | .dice _ | .number _ => exact .ok (.operand nofun nofun (.refl _))
  | .operator op => exact .ok (.operator op)

/-- Bound formulas put in place of variables come to the same with and without parentheses. -/
theorem Formula.substitute_alike (f : List Term) :
    Alike (SameTerms σ) (Formula.substitute b f) (Formula.parenthesize b f) := by
  match f with
  | [] => exact .ok .nil
  | t :: ts =>
    refine t.substitute_alike.bind fun u u' first => ?_
    refine (Formula.substitute_alike ts).bind fun us us' rest => ?_
    exact .ok (first us us' rest)

end

end

/-! ## Texts that cannot be read -/

section

variable {b : Bindings}

theorem Bindings.formula_ne_divisionByZero (path : String) :
    b.formula path ≠ .error .divisionByZero := by
  intro h
  unfold Bindings.formula at h
  split at h
  · cases h
  · split at h
    · cases h
    · rcases Formula.readAll_error_cases h with ⟨-, eq⟩ | ⟨stop, eq, -⟩
      · cases eq
      · exact Formula.toError_ne_divisionByZero _ stop eq.symm

mutual

theorem Term.parenthesize_ne_divisionByZero (t : Term) :
    t.parenthesize b ≠ .error .divisionByZero := by
  intro h
  match t with
  | .variable path =>
    rcases bind_eq_error_iff.1 h with failed | ⟨f, -, made⟩
    · exact b.formula_ne_divisionByZero path failed
    · cases made
  | .group inner =>
    rcases bind_eq_error_iff.1 h with failed | ⟨inner', -, made⟩
    · exact Formula.parenthesize_ne_divisionByZero inner failed
    · cases made
  | .call function argument =>
    rcases bind_eq_error_iff.1 h with failed | ⟨argument', -, made⟩
    · exact Formula.parenthesize_ne_divisionByZero argument failed
    · cases made
  | .dice _ | .number _ | .operator _ => cases h

/-- Nothing is divided before every variable is replaced. -/
theorem Formula.parenthesize_ne_divisionByZero (f : List Term) :
    Formula.parenthesize b f ≠ .error .divisionByZero := by
  intro h
  match f with
  | [] => cases h
  | t :: ts =>
    rcases bind_eq_error_iff.1 h with failed | ⟨u, -, h⟩
    · exact t.parenthesize_ne_divisionByZero failed
    · rcases bind_eq_error_iff.1 h with failed | ⟨us, -, made⟩
      · exact Formula.parenthesize_ne_divisionByZero ts failed
      · cases made

end

end

/-! ## The evaluation of texts -/

namespace Formula

section

variable {σ : Type} [Roller σ] {b : Bindings} {f g : Formula}

theorem evaluable_of_parsed {text : String} (parsed : parse text = .ok f)
    (h : parenthesize b f = .ok g) : Evaluable g := by
  obtain ⟨alternating, inside⟩ := evaluable_of_readAll parsed
  exact ⟨alternates_of_parenthesize h alternating, evaluable_of_parenthesize f h inside⟩

theorem perform_byPrecedence_of_ok (h : parenthesize b f = .ok g) (evaluable : Evaluable g)
    (s : σ) :
    perform (byPrecedence f b) s =
      ((perform (evaluateFrom Partial.start g) s).1.map fun r => (r.1.floor.toInteger, r.2),
        (perform (evaluateFrom Partial.start g) s).2) := by
  unfold byPrecedence
  rw [h, evaluateFrom_start_eq g evaluable]
  exact perform_map (fun r : Double × List DieOutcome => (r.1.floor.toInteger, r.2)) _ s

theorem perform_byPrecedence_of_error {e : FormulaError} (h : parenthesize b f = .error e)
    (s : σ) : perform (byPrecedence f b) s = (.error e, s) := by
  unfold byPrecedence
  rw [h]
  rfl

end

/-- A formula that was read is evaluated as if bound formulas were in parentheses, by products
before sums: the total, the dice, the error, and what is left of the roller are the same. Where it
succeeds, the reported text is that of the formula with its variables replaced, and there is one
outcome for each of the dice terms in it. Where it fails, some bound text cannot be read, and no die
is rolled, or a divisor is zero. -/
theorem evaluate_by_precedence {σ : Type} [Roller σ] {text : String} {f : Formula}
    (parsed : parse text = .ok f) (b : Bindings) (s : σ) :
    let outcome := perform (evaluate f b) s
    (outcome.1.map fun roll => (roll.total, roll.dice), outcome.2) =
        perform (byPrecedence f b) s ∧
      (∀ roll, outcome.1 = .ok roll → ∃ g, substitute b f = .ok g ∧ roll.formula = render g ∧
        roll.dice.map (·.faces) = (diceTerms g).map (·.faces)) ∧
      ∀ e, outcome.1 = .error e →
        substitute b f = .error e ∧ e ≠ .divisionByZero ∧ outcome.2 = s ∨
          e = .divisionByZero ∧ ∃ g, substitute b f = .ok g := by
  intro outcome
  have alike : Alike (SameTerms σ) (substitute b f) (parenthesize b f) := substitute_alike b f
  rcases alike.split with ⟨e, substituted, resolved⟩ | ⟨g, g', substituted, resolved, same⟩
  · have failed : outcome = (.error e, s) := perform_evaluate_of_error substituted s
    have undivided : e ≠ .divisionByZero := by
      rintro rfl
      exact parenthesize_ne_divisionByZero f resolved
    rw [failed, perform_byPrecedence_of_error resolved]
    refine ⟨rfl, nofun, ?_⟩
    rintro _ ⟨⟩
    exact Or.inl ⟨substituted, undivided, rfl⟩
  · -- the pass over `g'` adds up products, and the pass over `g` is like it from the same start
    have evaluable := evaluable_of_parsed parsed resolved
    have reached : outcome = _ := perform_evaluate_of_ok substituted s
    obtain ⟨results, states⟩ := same Partial.start Partial.start (.refl _) s
    rw [reached, perform_byPrecedence_of_ok resolved evaluable, ← states]
    rcases results.split with
      ⟨e, first, second⟩ | ⟨⟨value, dice⟩, ⟨value', _⟩, first, second, numbers, rfl⟩
    · rw [first, second]
      refine ⟨rfl, nofun, ?_⟩
      rintro _ ⟨⟩
      have division := error_of_evaluateFrom g' evaluable.inside (Prod.ext second rfl)
      exact Or.inr ⟨division, g, substituted⟩
    · rw [first, second]
      refine ⟨?_, ?_, nofun⟩
      · have totals := Double.SameNumber.toInteger_floor numbers
        simp only [Except.map, totals]
      · rintro _ ⟨⟩
        exact ⟨g, substituted, rfl, faces_of_evaluateFrom g (Prod.ext first rfl)⟩

/-- A divisor that is bound to an integer, and a factor that is bound to a sum. -/
def quotients : Bindings := (∅ : Bindings) |>.insert "x" "2" |>.insert "y" "1d4 + 1"

/-- The sum that is bound to the factor is multiplied as a whole, and `5 / 2 - 2 * (3 + 1)` is
rounded down; of a formula whose divisor is zero, the dice up to that divisor are rolled. -/
theorem quotients_by_precedence :
    (∃ f, parse "1d6 / @x - 2 * @y" = .ok f ∧
      perform (byPrecedence f quotients) (⟨[5, 3, 1]⟩ : Script) =
        (.ok (-6, [⟨6, [⟨5, true⟩]⟩, ⟨4, [⟨3, true⟩]⟩]), ⟨[1]⟩)) ∧
    ∃ f, parse "1d6 / (1d4 - @x) * 1d8" = .ok f ∧
      perform (byPrecedence f quotients) (⟨[5, 2, 7]⟩ : Script) =
        (.error .divisionByZero, ⟨[7]⟩) := by
  constructor
  · have parsed : parse "1d6 / @x - 2 * @y" =
        .ok [.dice ⟨1, 6, []⟩, .operator .divide, .variable "x", .operator .subtract, .number 2,
          .operator .multiply, .variable "y"] := by cbv
    have substituted : substitute quotients
        [.dice ⟨1, 6, []⟩, .operator .divide, .variable "x", .operator .subtract, .number 2,
          .operator .multiply, .variable "y"] =
        .ok [.dice ⟨1, 6, []⟩, .operator .divide, .number 2, .operator .subtract, .number 2,
          .operator .multiply, .group [.dice ⟨1, 4, []⟩, .operator .add, .number 1]] := by cbv
    refine ⟨_, parsed, ?_⟩
    obtain ⟨same, -⟩ := evaluate_by_precedence parsed quotients (⟨[5, 3, 1]⟩ : Script)
    rw [← same, perform_evaluate_of_ok substituted]
    decide +kernel
  · have parsed : parse "1d6 / (1d4 - @x) * 1d8" =
        .ok [.dice ⟨1, 6, []⟩, .operator .divide,
          .group [.dice ⟨1, 4, []⟩, .operator .subtract, .variable "x"], .operator .multiply,
          .dice ⟨1, 8, []⟩] := by cbv
    have substituted : substitute quotients
        [.dice ⟨1, 6, []⟩, .operator .divide,
          .group [.dice ⟨1, 4, []⟩, .operator .subtract, .variable "x"], .operator .multiply,
          .dice ⟨1, 8, []⟩] =
        .ok [.dice ⟨1, 6, []⟩, .operator .divide,
          .group [.dice ⟨1, 4, []⟩, .operator .subtract, .number 2], .operator .multiply,
          .dice ⟨1, 8, []⟩] := by cbv
    refine ⟨_, parsed, ?_⟩
    obtain ⟨same, -⟩ := evaluate_by_precedence parsed quotients (⟨[5, 2, 7]⟩ : Script)
    rw [← same, perform_evaluate_of_ok substituted]
    decide +kernel

end Formula

end Tabletop
