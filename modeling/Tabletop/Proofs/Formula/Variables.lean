import Mathlib
import Tabletop.Proofs.Dice.Evaluation
/-!
# Variables that substitution leaves

A bound text is read once and put in place, and is not substituted again. So a formula has no
variables left exactly if none of the texts that its own variables are bound to has any. A variable
that is left stays in the reported text, and counts as zero even if it is bound.
-/

namespace Tabletop

mutual

/-- The paths of the variables at any depth, in written order. -/
def Term.paths : Term → List String
  | .variable path => [path]
  | .group inner => Formula.paths inner
  | .call _ argument => Formula.paths argument
  | _ => []

def Formula.paths : List Term → List String
  | [] => []
  | t :: ts => t.paths ++ Formula.paths ts

end

/-- The variables in what a path is bound to. -/
def Bindings.nestedPaths (b : Bindings) (path : String) : List String :=
  match b.get? path with
  | none => []
  | some text =>
    match Formula.boundTerm text with
    | .error _ => []
    | .ok t => t.paths

/-! ## After substitution -/

variable {b : Bindings}

mutual

theorem Term.paths_of_substitute (t : Term) {u : Term} (h : t.substitute b = .ok u) :
    u.paths = t.paths.flatMap b.nestedPaths := by
  match t with
  | .variable path =>
    rw [Term.substitute] at h
    rw [Term.paths, List.flatMap_singleton, Bindings.nestedPaths]
    cases bound : b.get? path with
    | none =>
      rw [bound] at h
      cases h
      rfl
    | some text =>
      rw [bound] at h
      simp only [show Formula.boundTerm text = .ok u from h]
  | .group inner =>
    obtain ⟨inner', substituted, made⟩ := bind_eq_ok_iff.1 h
    cases made
    exact Formula.paths_of_substitute inner substituted
  | .call function argument =>
    obtain ⟨argument', substituted, made⟩ := bind_eq_ok_iff.1 h
    cases made
    exact Formula.paths_of_substitute argument substituted
  | .dice _ =>
    cases h
    rfl
  | .number _ =>
    cases h
    rfl
  | .operator _ =>
    cases h
    rfl

/-- The variables that are left are those of the bound texts, in the order of the formula. -/
theorem Formula.paths_of_substitute (f : List Term) {g : List Term}
    (h : Formula.substitute b f = .ok g) :
    Formula.paths g = (Formula.paths f).flatMap b.nestedPaths := by
  match f with
  | [] =>
    cases h
    rfl
  | t :: ts =>
    obtain ⟨u, first, h⟩ := bind_eq_ok_iff.1 h
    obtain ⟨us, rest, made⟩ := bind_eq_ok_iff.1 h
    cases made
    rw [Formula.paths, Formula.paths, List.flatMap_append, t.paths_of_substitute first,
      Formula.paths_of_substitute ts rest]

end

/-! ## In the written form -/

theorem at_notMem_countChars (n : Nat) : '@' ∉ countChars n := by
  intro mem
  have digit : '@'.isDigit = true := Nat.isDigit_of_mem_toDigits (by decide) (by decide) mem
  exact absurd digit (by decide)

theorem at_notMem_keepChars (n : Nat) : '@' ∉ keepChars n := by
  unfold keepChars
  split
  · exact List.not_mem_nil
  · exact at_notMem_countChars n

theorem DieModifier.at_notMem_chars (m : DieModifier) : '@' ∉ m.chars := by
  cases m with
  | rerollBelow n => simp [DieModifier.chars, at_notMem_countChars]
  | keepHighest n => simp [DieModifier.chars, at_notMem_keepChars]
  | keepLowest n => simp [DieModifier.chars, at_notMem_keepChars]
  | minimum n => simp [DieModifier.chars, at_notMem_countChars]

theorem DiceTerm.at_notMem_chars (d : DiceTerm) : '@' ∉ d.chars := by
  simp [DiceTerm.chars, at_notMem_countChars, DieModifier.at_notMem_chars]

theorem at_notMem_integerChars (n : Int) : '@' ∉ integerChars n := by
  unfold integerChars
  split
  · simp [at_notMem_countChars]
  · exact at_notMem_countChars _

mutual

theorem Term.at_mem_chars_iff (t : Term) : '@' ∈ t.chars ↔ t.paths ≠ [] := by
  match t with
  | .variable path => simp [Term.chars, Term.paths]
  | .group inner => simp [Term.chars, Term.paths, Formula.at_mem_chars_iff inner]
  | .call function argument =>
    have named : '@' ∉ function.name.toList := by cases function <;> decide
    simp [Term.chars, Term.paths, Formula.at_mem_chars_iff argument, named]
  | .dice d => simp [Term.chars, Term.paths, d.at_notMem_chars]
  | .number n => simp [Term.chars, Term.paths, at_notMem_integerChars n]
  | .operator op => cases op <;> simp [Term.chars, Term.paths, Operator.symbol]

theorem Formula.at_mem_chars_iff (f : List Term) :
    '@' ∈ Formula.chars f ↔ Formula.paths f ≠ [] := by
  match f with
  | [] => simp [Formula.chars, Formula.paths]
  | t :: ts =>
    rw [Formula.chars, Formula.paths, List.mem_append, t.at_mem_chars_iff,
      Formula.at_mem_chars_iff ts, Ne, Ne, Ne, List.append_eq_nil_iff,
      Classical.not_and_iff_not_or_not]

end

/-! ## When evaluated -/

section

variable {σ : Type} [Roller σ]

theorem Term.substitute_ne_operator {t u : Term} (operand : ∀ op, t ≠ .operator op)
    (h : t.substitute ∅ = .ok u) : ∀ op, u ≠ .operator op := by
  rintro op rfl
  match t with
  | .variable path => cases h
  | .group inner =>
    obtain ⟨inner', -, made⟩ := bind_eq_ok_iff.1 h
    cases made
  | .call function argument =>
    obtain ⟨argument', -, made⟩ := bind_eq_ok_iff.1 h
    cases made
  | .dice _ => cases h
  | .number _ => cases h
  | .operator op => exact operand op rfl

mutual

theorem Term.evaluate_of_substitute_empty (t : Term) {u : Term} (h : t.substitute ∅ = .ok u) :
    (t.evaluate : Rolling σ _) = u.evaluate := by
  match t with
  | .variable path =>
    cases h
    rfl
  | .group inner =>
    obtain ⟨inner', substituted, made⟩ := bind_eq_ok_iff.1 h
    cases made
    exact Formula.evaluateFrom_of_substitute_empty inner substituted Partial.start
  | .call function argument =>
    obtain ⟨argument', substituted, made⟩ := bind_eq_ok_iff.1 h
    cases made
    rw [Term.evaluate, Term.evaluate,
      Formula.evaluateFrom_of_substitute_empty argument substituted Partial.start]
  | .dice _ =>
    cases h
    rfl
  | .number _ =>
    cases h
    rfl
  | .operator _ =>
    cases h
    rfl

/-- A variable has the value that an unbound one is replaced by. -/
theorem Formula.evaluateFrom_of_substitute_empty (f : List Term) {g : List Term}
    (h : Formula.substitute ∅ f = .ok g) (p : Partial) :
    (Formula.evaluateFrom p f : Rolling σ _) = Formula.evaluateFrom p g := by
  match f with
  | [] =>
    cases h
    rfl
  | t :: ts =>
    obtain ⟨u, first, h⟩ := bind_eq_ok_iff.1 h
    obtain ⟨us, rest, made⟩ := bind_eq_ok_iff.1 h
    cases made
    rcases t.operator_or_operand with ⟨op, rfl⟩ | operand
    · cases first
      exact Formula.evaluateFrom_of_substitute_empty ts rest { p with pending := some op }
    · rw [Formula.evaluateFrom_operand operand,
        Formula.evaluateFrom_operand (Term.substitute_ne_operator operand first),
        t.evaluate_of_substitute_empty first]
      simp only [Formula.evaluateFrom_of_substitute_empty ts rest]

end

end

/-! ## What is left -/

mutual

theorem Term.exists_substitute_empty (t : Term) : ∃ u, t.substitute ∅ = .ok u := by
  match t with
  | .variable path => exact ⟨.number 0, rfl⟩
  | .group inner =>
    obtain ⟨inner', substituted⟩ := Formula.exists_substitute_empty inner
    exact ⟨.group inner', bind_eq_ok_iff.2 ⟨inner', substituted, rfl⟩⟩
  | .call function argument =>
    obtain ⟨argument', substituted⟩ := Formula.exists_substitute_empty argument
    exact ⟨.call function argument', bind_eq_ok_iff.2 ⟨argument', substituted, rfl⟩⟩
  | .dice d => exact ⟨.dice d, rfl⟩
  | .number n => exact ⟨.number n, rfl⟩
  | .operator op => exact ⟨.operator op, rfl⟩

/-- Without bindings nothing has to be read, so nothing can fail. -/
theorem Formula.exists_substitute_empty (f : List Term) : ∃ g, Formula.substitute ∅ f = .ok g := by
  match f with
  | [] => exact ⟨[], rfl⟩
  | t :: ts =>
    obtain ⟨u, first⟩ := t.exists_substitute_empty
    obtain ⟨us, rest⟩ := Formula.exists_substitute_empty ts
    exact ⟨u :: us, bind_eq_ok_iff.2 ⟨u, first, bind_eq_ok_iff.2 ⟨us, rest, rfl⟩⟩⟩

end

mutual

theorem Term.substitute_congr {b' : Bindings} (t : Term)
    (h : ∀ path ∈ t.paths, b.get? path = b'.get? path) : t.substitute b = t.substitute b' := by
  match t with
  | .variable path =>
    rw [Term.substitute, Term.substitute, h path (List.mem_singleton_self path)]
  | .group inner => rw [Term.substitute, Term.substitute, Formula.substitute_congr inner h]
  | .call function argument =>
    rw [Term.substitute, Term.substitute, Formula.substitute_congr argument h]
  | .dice _ | .number _ | .operator _ => rfl

/-- A substitution reads the variables of the formula only. -/
theorem Formula.substitute_congr {b' : Bindings} (f : List Term)
    (h : ∀ path ∈ Formula.paths f, b.get? path = b'.get? path) :
    Formula.substitute b f = Formula.substitute b' f := by
  match f with
  | [] => rfl
  | t :: ts =>
    obtain ⟨first, rest⟩ := List.forall_mem_append.1 h
    rw [Formula.substitute, Formula.substitute, t.substitute_congr first,
      Formula.substitute_congr ts rest]

end

namespace Formula

theorem at_mem_render_iff (f : Formula) : '@' ∈ (render f).toList ↔ paths f ≠ [] := by
  rw [render, String.toList_ofList]
  exact at_mem_chars_iff f

/-- Which variables a substitution leaves, that they can be read in the text that is reported, and
that the evaluation goes on as if they were bound to nothing. -/
theorem substitute_leaves {f g : Formula} {b : Bindings} (h : substitute b f = .ok g) :
    (∀ path, path ∈ paths g ↔ ∃ outer ∈ paths f, path ∈ b.nestedPaths outer) ∧
    ('@' ∈ (render g).toList ↔ ∃ outer ∈ paths f, b.nestedPaths outer ≠ []) ∧
    ∀ (σ : Type) [Roller σ] (s : σ), perform (evaluate f b) s =
      ((perform (evaluate g ∅) s).1.map fun roll => { roll with formula := render g },
        (perform (evaluate g ∅) s).2) := by
  have left := paths_of_substitute f h
  refine ⟨fun path => ?_, ?_, fun σ _ s => ?_⟩
  · rw [left, List.mem_flatMap]
  · rw [at_mem_render_iff, left, Ne, List.flatMap_eq_nil_iff]
    simp only [Classical.not_forall, exists_prop, Ne]
  · obtain ⟨g', zeroed⟩ := exists_substitute_empty g
    rw [perform_evaluate_of_ok h, perform_evaluate_of_ok zeroed,
      evaluateFrom_of_substitute_empty g zeroed]
    rcases perform (evaluateFrom Partial.start g') s with ⟨e | r, s'⟩
    · rfl
    · rfl

/-- A bonus that refers to another one, both bound. -/
def bonuses : Bindings := (∅ : Bindings) |>.insert "a" "1d4 + @b" |>.insert "b" "5"

/-- The inner bonus is bound and still there, inside of the group that the outer one became. -/
theorem bonuses_leave_variable :
    ∃ f g, parse "2 * floor(@a)" = .ok f ∧ substitute bonuses f = .ok g ∧
      paths f = ["a"] ∧ paths g = ["b"] ∧ '@' ∈ (render g).toList ∧
      ("b" ∈ paths g ↔ ∃ outer ∈ paths f, "b" ∈ bonuses.nestedPaths outer) := by
  have parsed : parse "2 * floor(@a)" =
      .ok [.number 2, .operator .multiply, .call .floor [.variable "a"]] := by cbv
  have substituted : substitute bonuses
      [.number 2, .operator .multiply, .call .floor [.variable "a"]] =
      .ok [.number 2, .operator .multiply,
        .call .floor [.group [.dice ⟨1, 4, []⟩, .operator .add, .variable "b"]]] := by cbv
  have nested : bonuses.nestedPaths "a" = ["b"] := by cbv
  obtain ⟨left, written, -⟩ := substitute_leaves substituted
  refine ⟨_, _, parsed, substituted, rfl, rfl, ?_, left "b"⟩
  exact written.2 ⟨"a", by decide, by simp [nested]⟩

/-- A variable bound to a variable is not replaced by a value, and counts as zero while it is
bound. -/
theorem bound_variable_stays :
    let b : Bindings := (∅ : Bindings) |>.insert "a" "@b" |>.insert "b" "5"
    ∃ f g, parse "@a" = .ok f ∧ substitute b f = .ok g ∧ paths g = ["b"] ∧
      b.get? "b" = some "5" ∧
      perform (evaluate f b) (⟨[]⟩ : Script) = (.ok ⟨"@b", 0, []⟩, ⟨[]⟩) := by
  intro b
  have parsed : parse "@a" = .ok [.variable "a"] := by cbv
  have substituted : substitute b [.variable "a"] = .ok [.variable "b"] := by cbv
  refine ⟨_, _, parsed, substituted, rfl, by decide, ?_⟩
  rw [perform_evaluate_of_ok substituted]
  exact Prod.ext (eq_ok_of_toOption (by decide +kernel)) rfl

end Formula

end Tabletop
