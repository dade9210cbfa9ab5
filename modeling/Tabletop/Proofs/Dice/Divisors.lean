import Mathlib
import Tabletop.Proofs.Dice.Sources
import Tabletop.Proofs.Formula.Rereading
import Tabletop.Proofs.Formula.Variables
/-!
# Divisors

A formula that can be read can also be evaluated, but for one thing: what it divides by can be zero.
Whether it is depends on the dice, so a formula that was rolled need not have a maximum. The text of
a roll is read as the formula that was evaluated, and its maximum is there exactly if none of the
divisors is zero with the highest faces.
-/

namespace Tabletop

mutual

def Term.divisors : Term → List Term
  | .group inner => Formula.divisors none inner
  | .call _ argument => Formula.divisors none argument
  | _ => []

/-- The operands at any depth that are divided by, where `pending` is the operator before the first
term. -/
def Formula.divisors (pending : Option Operator) : List Term → List Term
  | [] => []
  | .operator op :: ts => Formula.divisors (some op) ts
  | t :: ts =>
    (if pending = some .divide then [t] else []) ++ (t.divisors ++ Formula.divisors none ts)

end

theorem Formula.divisors_operand {t : Term} (operand : ∀ op, t ≠ .operator op)
    (pending : Option Operator) (ts : List Term) :
    divisors pending (t :: ts) =
      (if pending = some .divide then [t] else []) ++ (t.divisors ++ divisors none ts) := by
  rw [divisors]
  exact operand

mutual

theorem Term.divide_mem_of_divisors (t : Term) (h : t.divisors ≠ []) :
    .operator .divide ∈ t.nested := by
  match t with
  | .group inner =>
    rcases Formula.divide_mem_of_divisors inner h with pending | mem
    · cases pending
    · exact List.mem_cons_of_mem _ mem
  | .call function argument =>
    rcases Formula.divide_mem_of_divisors argument h with pending | mem
    · cases pending
    · exact List.mem_cons_of_mem _ mem
  | .dice _ | .number _ | .variable _ | .operator _ => exact absurd rfl h

/-- Only a formula with a division has divisors. -/
theorem Formula.divide_mem_of_divisors (ts : List Term) {pending : Option Operator}
    (h : Formula.divisors pending ts ≠ []) :
    pending = some .divide ∨ .operator .divide ∈ Formula.nested ts := by
  match ts with
  | [] => exact absurd rfl h
  | t :: ts =>
    rcases t.operator_or_operand with ⟨op, rfl⟩ | operand
    · rw [Formula.divisors] at h
      rcases Formula.divide_mem_of_divisors ts h with same | mem
      · cases same
        exact Or.inr List.mem_cons_self
      · exact Or.inr (List.mem_cons_of_mem _ mem)
    · rw [Formula.divisors_operand operand] at h
      by_cases divided : pending = some .divide
      · exact Or.inl divided
      · rw [if_neg divided, List.nil_append] at h
        by_cases first : t.divisors = []
        · rw [first, List.nil_append] at h
          rcases Formula.divide_mem_of_divisors ts h with none | mem
          · cases none
          · exact Or.inr (List.mem_append_right _ mem)
        · exact Or.inr (List.mem_append_left _ (t.divide_mem_of_divisors first))

end

/-! ## Evaluations and their divisors -/

/-- Whether the term can come to zero, or to something else, with the dice of a roller. -/
def Term.ComesTo (σ : Type) [Roller σ] (t : Term) (zero : Bool) : Prop :=
  ∃ (s s' : σ) (value : Double) (dice : List DieOutcome),
    perform t.evaluate s = (.ok (value, dice), s') ∧ value.isZero = zero

section

variable {σ : Type} [Roller σ]

theorem Partial.push_cases (p : Partial) (value : Double) :
    (p.push value = .error .divisionByZero ∧ p.pending = some .divide ∧ value.isZero = true) ∨
      ∃ q, p.push value = .ok q ∧ q.pending = none ∧
        (p.pending = some .divide → value.isZero = false) := by
  unfold push
  cases next : p.pending with
  | none => exact Or.inr ⟨_, rfl, rfl, nofun⟩
  | some op =>
    cases op with
    | divide =>
      cases zero : value.isZero with
      | true => exact Or.inl ⟨rfl, rfl, rfl⟩
      | false => exact Or.inr ⟨_, rfl, rfl, fun _ => rfl⟩
    | _ => exact Or.inr ⟨_, rfl, rfl, nofun⟩

theorem DiceTerm.error_of_roll {d : DiceTerm} {s s' : σ} {e : FormulaError}
    (h : perform d.roll s = (.error e, s')) : maxDice < d.number := by
  by_contra few
  unfold DiceTerm.roll at h
  rw [if_neg few] at h
  cases h

mutual

theorem Term.nonzero_of_evaluate (t : Term) {s s' : σ} {value : Double} {dice : List DieOutcome}
    (h : perform t.evaluate s = (.ok (value, dice), s')) :
    ∀ u ∈ t.divisors, u.ComesTo σ false := by
  match t with
  | .group inner => exact Formula.nonzero_of_evaluateFrom inner (p := Partial.start) h
  | .call function argument =>
    obtain ⟨⟨inside, rolls⟩, u, evaluated, -⟩ := perform_bind_ok_iff.1 h
    exact Formula.nonzero_of_evaluateFrom argument (p := Partial.start) evaluated
  | .dice _ | .number _ | .variable _ | .operator _ => exact List.forall_mem_nil _

/-- What was divided by in an evaluation that succeeded was not zero. -/
theorem Formula.nonzero_of_evaluateFrom (ts : List Term) {p : Partial} {s s' : σ} {value : Double}
    {dice : List DieOutcome}
    (h : perform (Formula.evaluateFrom p ts) s = (.ok (value, dice), s')) :
    ∀ u ∈ Formula.divisors p.pending ts, u.ComesTo σ false := by
  match ts with
  | [] => exact List.forall_mem_nil _
  | t :: ts =>
    rcases t.operator_or_operand with ⟨op, rfl⟩ | operand
    · rw [Formula.divisors]
      exact Formula.nonzero_of_evaluateFrom ts (p := { p with pending := some op }) h
    · rw [Formula.evaluateFrom_operand operand] at h
      obtain ⟨⟨first, rolls⟩, v, evaluated, h⟩ := perform_bind_ok_iff.1 h
      obtain ⟨q, w, pushed, h⟩ := perform_bind_ok_iff.1 h
      obtain ⟨⟨total, more⟩, x, rest, -⟩ := perform_bind_ok_iff.1 h
      rw [perform_lift] at pushed
      obtain ⟨pushed, -⟩ := Prod.mk.inj pushed
      rcases p.push_cases first with ⟨failed, -⟩ | ⟨q', made, open_, nonzero⟩
      · cases pushed.symm.trans failed
      · cases pushed.symm.trans made
        have behind := Formula.nonzero_of_evaluateFrom ts rest
        rw [open_] at behind
        rw [Formula.divisors_operand operand, List.forall_mem_append, List.forall_mem_append]
        refine ⟨?_, t.nonzero_of_evaluate evaluated, behind⟩
        split
        · next divided =>
          exact List.forall_mem_singleton.2 ⟨s, v, first, rolls, evaluated, nonzero divided⟩
        · exact List.forall_mem_nil _

end

mutual

theorem Term.zero_of_evaluate (t : Term) (operand : ∀ op, t ≠ .operator op)
    (few : ∀ d, .dice d ∈ t.nested → d.number ≤ maxDice) {s s' : σ} {e : FormulaError}
    (h : perform t.evaluate s = (.error e, s')) :
    e = .divisionByZero ∧ ∃ u ∈ t.divisors, u.ComesTo σ true := by
  match t with
  | .dice d =>
    rcases perform_bind_error_iff.1 h with failed | ⟨outcome, u, -, made⟩
    · have many := DiceTerm.error_of_roll failed
      exact absurd (few d List.mem_cons_self) (Nat.not_le.2 many)
    · cases made
  | .number _ => cases h
  | .variable _ => cases h
  | .group inner =>
    exact Formula.zero_of_evaluateFrom inner (p := Partial.start)
      (fun d mem => few d (List.mem_cons_of_mem _ mem)) h
  | .call function argument =>
    rcases perform_bind_error_iff.1 h with failed | ⟨⟨value, dice⟩, u, -, made⟩
    · exact Formula.zero_of_evaluateFrom argument (p := Partial.start)
        (fun d mem => few d (List.mem_cons_of_mem _ mem)) failed
    · cases made
  | .operator op => exact absurd rfl (operand op)

/-- An evaluation fails only where it divides by zero. -/
theorem Formula.zero_of_evaluateFrom (ts : List Term) {p : Partial}
    (few : ∀ d, .dice d ∈ Formula.nested ts → d.number ≤ maxDice) {s s' : σ} {e : FormulaError}
    (h : perform (Formula.evaluateFrom p ts) s = (.error e, s')) :
    e = .divisionByZero ∧ ∃ u ∈ Formula.divisors p.pending ts, u.ComesTo σ true := by
  match ts with
  | [] => cases h
  | t :: ts =>
    have others : ∀ d, .dice d ∈ Formula.nested ts → d.number ≤ maxDice := fun d mem =>
      few d (List.mem_append_right _ mem)
    rcases t.operator_or_operand with ⟨op, rfl⟩ | operand
    · rw [Formula.divisors]
      exact Formula.zero_of_evaluateFrom ts (p := { p with pending := some op }) others h
    · rw [Formula.evaluateFrom_operand operand] at h
      rw [Formula.divisors_operand operand]
      rcases perform_bind_error_iff.1 h with failed | ⟨⟨first, rolls⟩, v, evaluated, h⟩
      · obtain ⟨division, u, mem, zero⟩ := t.zero_of_evaluate operand
          (fun d mem => few d (List.mem_append_left _ mem)) failed
        exact ⟨division, u, List.mem_append_right _ (List.mem_append_left _ mem), zero⟩
      · rcases p.push_cases first with ⟨failed, divided, zero⟩ | ⟨q, made, open_, -⟩
        · rw [if_pos divided]
          refine ⟨?_, t, List.mem_cons_self, s, v, first, rolls, evaluated, zero⟩
          rcases perform_bind_error_iff.1 h with stopped | ⟨q, w, pushed, -⟩
          · rw [perform_lift, failed] at stopped
            cases stopped
            rfl
          · rw [perform_lift, failed] at pushed
            cases pushed
        · rcases perform_bind_error_iff.1 h with stopped | ⟨q', w, pushed, h⟩
          · rw [perform_lift, made] at stopped
            cases stopped
          · rw [perform_lift, made] at pushed
            cases pushed
            rcases perform_bind_error_iff.1 h with failed | ⟨⟨total, more⟩, x, -, made⟩
            · obtain ⟨division, u, mem, zero⟩ := Formula.zero_of_evaluateFrom ts others failed
              rw [open_] at mem
              exact ⟨division, u, List.mem_append_right _ (List.mem_append_right _ mem), zero⟩
            · cases made

end

end

/-! ## Texts of rolls -/

/-- Whether the term comes to zero when every die shows its highest face. -/
def Term.vanishes (t : Term) : Bool :=
  match (perform t.evaluate Maximizer.mk).1 with
  | .ok (value, _) => value.isZero
  | .error _ => false

theorem Term.vanishes_of_comesTo {t : Term} {zero : Bool} (h : t.ComesTo Maximizer zero) :
    t.vanishes = zero := by
  obtain ⟨s, s', value, dice, evaluated, rfl⟩ := h
  unfold vanishes
  rw [show Maximizer.mk = s from rfl, evaluated]

/-- What comes of a text that is read, where nothing is bound to its variables. -/
theorem EvaluatedBy.eq_of_parse {text : String} {f : Formula}
    {x : Except FormulaError EvaluatedRoll} (h : EvaluatedBy text ∅ x)
    (parsed : Formula.parse text = .ok f) :
    ∃ (σ : Type) (_ : Roller σ) (s : σ) (shown : String),
      x = (perform (Formula.evaluateFrom Partial.start f) s).1.map
        fun r => ⟨shown, r.1.floor.toInteger, r.2⟩ := by
  obtain ⟨g, replaced⟩ := Formula.exists_substitute_empty f
  obtain ⟨σ, roller, -, s, same⟩ := h.eq_of_substituted parsed replaced
  refine ⟨σ, roller, s, Formula.render g, ?_⟩
  rw [same, ← Formula.evaluateFrom_of_substitute_empty f replaced]

theorem Formula.few_of_parse {text : String} {f : Formula} (parsed : parse text = .ok f) :
    ∀ d, .dice d ∈ nested f → d.number ≤ maxDice := fun _ mem =>
  ((sound_of_parse parsed).2 _ mem).1.1

theorem Formula.error_of_evaluation {σ : Type} [Roller σ] {text shown : String} {f : Formula}
    {e : FormulaError} {s : σ} (parsed : parse text = .ok f)
    (same : .error e = (perform (evaluateFrom Partial.start f) s).1.map fun r =>
      (⟨shown, r.1.floor.toInteger, r.2⟩ : EvaluatedRoll)) :
    e = .divisionByZero ∧ .operator .divide ∈ nested f := by
  rcases evaluated : perform (evaluateFrom Partial.start f) s with ⟨e' | r, s'⟩
  · rw [evaluated] at same
    cases same
    obtain ⟨rfl, u, mem, -⟩ := zero_of_evaluateFrom f (few_of_parse parsed) evaluated
    refine ⟨rfl, ?_⟩
    rcases divide_mem_of_divisors f (List.ne_nil_of_mem mem) with pending | mem
    · cases pending
    · exact mem
  · rw [evaluated] at same
    cases same

/-- A text that is read is evaluated, unless its formula divides and a divisor is zero. -/
theorem EvaluatedBy.error_eq {text : String} {f : Formula} {e : FormulaError}
    (h : EvaluatedBy text ∅ (.error e)) (parsed : Formula.parse text = .ok f) :
    e = .divisionByZero ∧ .operator .divide ∈ Formula.nested f := by
  obtain ⟨σ, roller, s, shown, same⟩ := h.eq_of_parse parsed
  exact Formula.error_of_evaluation parsed same

/-- The text that is reported of a roll can be read. -/
theorem RolledFrom.exists_parse {text : String} {b : Bindings} {r : EvaluatedRoll}
    (h : RolledFrom text b r) (avoids : b.AvoidsLeast) :
    ∃ g, Formula.parse r.formula = .ok g := by
  obtain ⟨parsed, substituted, -⟩ := h
  exact ⟨_, Formula.parse_substituted parsed substituted avoids⟩

/-- What is reported of a roll divides only where the text that was rolled does. -/
theorem EvaluatedBy.error_eq_of_rolledFrom {text : String} {f : Formula} {r : EvaluatedRoll}
    {e : FormulaError} (h : EvaluatedBy r.formula ∅ (.error e)) (rolled : RolledFrom text ∅ r)
    (parsed : Formula.parse text = .ok f) :
    e = .divisionByZero ∧ .operator .divide ∈ Formula.nested f := by
  obtain ⟨parsed', substituted, -⟩ := rolled
  cases parsed.symm.trans parsed'
  have reread := Formula.parse_substituted parsed substituted Bindings.empty_avoidsLeast
  obtain ⟨σ, roller, s, shown, same⟩ := h.eq_of_parse reread
  rw [← Formula.evaluateFrom_of_substitute_empty _ substituted] at same
  exact Formula.error_of_evaluation parsed same

/-- A text that is read has a maximum exactly if none of its divisors is zero with the highest
faces. -/
theorem exists_maximum_iff {text : String} {f : Formula} (parsed : Formula.parse text = .ok f) :
    (∃ top, maximize text ∅ = .ok top) ↔ ∀ u ∈ Formula.divisors none f, u.vanishes = false := by
  obtain ⟨g, replaced⟩ := Formula.exists_substitute_empty f
  rw [maximize_eq parsed, Formula.perform_evaluate_of_ok replaced,
    ← Formula.evaluateFrom_of_substitute_empty f replaced]
  rcases evaluated : perform (Formula.evaluateFrom Partial.start f) Maximizer.mk with ⟨e | r, s⟩
  · have few := Formula.few_of_parse parsed
    obtain ⟨-, u, mem, zero⟩ := Formula.zero_of_evaluateFrom f few evaluated
    constructor
    · rintro ⟨top, made⟩
      cases made
    · intro nonzero
      cases (nonzero u mem).symm.trans (Term.vanishes_of_comesTo zero)
  · refine ⟨fun _ u mem => ?_, fun _ => ⟨_, rfl⟩⟩
    exact Term.vanishes_of_comesTo (Formula.nonzero_of_evaluateFrom f evaluated u mem)

/-- A text without a maximum divides by zero there. -/
theorem maximize_eq_divisionByZero {text : String} {f : Formula}
    (parsed : Formula.parse text = .ok f) (none : ¬∃ top, maximize text ∅ = .ok top) :
    maximize text ∅ = .error .divisionByZero := by
  have evaluated := evaluatedBy_maximize text ∅
  cases made : maximize text ∅ with
  | ok top => exact absurd ⟨top, made⟩ none
  | error e =>
    rw [made] at evaluated
    rw [(evaluated.error_eq parsed).1]

end Tabletop
