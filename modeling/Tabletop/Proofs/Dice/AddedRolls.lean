import Mathlib
import Tabletop.Proofs.Dice.Rolls
import Tabletop.Proofs.Dice.Splicing
/-!
# Multiple rolls with a formula that is added

A multiple roll adds texts to its formula. A variable that is added and is bound to a text comes to
the same as the text itself, roll by roll, where the evaluation is exact and the variables of the
text are bound to nothing. All that differs is the text of the formula that is reported.
-/

namespace Tabletop

/-! ## Evaluations by a script -/

namespace ScriptedSource

variable {ε α : Type}

/-- A computation that is done with the script and counted as an evaluation. -/
def counting (x : ExceptT ε (StateM Script) α) : ExceptT ε (StateM ScriptedSource) α :=
  ExceptT.mk fun s =>
    let (result, script) := x.run.run s.script
    (result, ⟨script, s.evaluations + 1⟩)

/-- The same computation a number of times, up to one that fails. -/
def times (x : ExceptT ε (StateM Script) α) : Nat → ExceptT ε (StateM ScriptedSource) (List α)
  | 0 => return []
  | n + 1 => do
    let a ← counting x
    return a :: (← times x n)

theorem evaluateTimes_eq {text : String} {f : Formula} (parsed : Formula.parse text = .ok f)
    (b : Bindings) (n : Nat) :
    (evaluateTimes text b n : Rolling ScriptedSource _) = times (Formula.evaluate f b) n := by
  have once : (RandomSource.evaluate text b : Rolling ScriptedSource _) =
      counting (Formula.evaluate f b) := by
    change counting (evaluateText text b) = _
    unfold evaluateText
    rw [parsed]
    rfl
  induction n with
  | zero => rfl
  | succ n ih => rw [evaluateTimes, times, once, ih]

theorem length_of_times {x : ExceptT ε (StateM Script) α} {n : Nat} {s s' : ScriptedSource}
    {as : List α} (h : perform (times x n) s = (.ok as, s')) : as.length = n := by
  induction n generalizing s as with
  | zero =>
    cases h
    rfl
  | succ n ih =>
    obtain ⟨a, u, -, h⟩ := perform_bind_ok_iff.1 h
    obtain ⟨rest, v, others, h⟩ := perform_bind_ok_iff.1 h
    cases h
    exact congrArg (· + 1) (ih others)

end ScriptedSource

section

variable {ε α β : Type} {embed : ε → ExactError} {R : α → β → Prop}
  {x : ExceptT ε (StateM Script) α} {y : Exactly Script β}

theorem Tracks.counting (h : Tracks embed R x y) :
    Tracks embed R (ScriptedSource.counting x) (ScriptedSource.counting y) := by
  intro s admitted
  obtain ⟨results, states⟩ := h s.script admitted
  exact ⟨results, congrArg (ScriptedSource.mk · (s.evaluations + 1)) states⟩

theorem Tracks.times (h : Tracks embed R x y) (n : Nat) :
    Tracks embed (List.Forall₂ R) (ScriptedSource.times x n) (ScriptedSource.times y n) := by
  induction n with
  | zero => exact .pure .nil
  | succ n ih =>
    refine h.counting.bind fun a b first => ?_
    exact ih.bind fun as bs rest => .pure (.cons first rest)

/-- Two computations that track the same exact one, as long as each of them is held to numbers that
are admitted, come to the same in the eyes of a view that the exact result determines. -/
theorem Tracks.agree {σ γ : Type} {view : α → γ} {exact : β → γ}
    {x x' : ExceptT ε (StateM σ) α} {y y' z : Exactly σ β} (injective : Function.Injective embed)
    (h : Tracks embed (fun a b => view a = exact b) x y)
    (h' : Tracks embed (fun a b => view a = exact b) x' y') (fewer : Refines z y)
    (fewer' : Refines z y') {s : σ} (admitted : (perform y s).1 ≠ .error .notAdmitted)
    (admitted' : (perform y' s).1 ≠ .error .notAdmitted) :
    ((perform x s).1.map view, (perform x s).2) =
      ((perform x' s).1.map view, (perform x' s).2) := by
  have viewed {x : ExceptT ε (StateM σ) α} {y : Exactly σ β}
      (h : Tracks embed (fun a b => view a = exact b) x y) (fewer : Refines z y)
      (admitted : (perform y s).1 ≠ .error .notAdmitted) :
      ((perform x s).1.map view).mapError embed = (perform z s).1.map exact ∧
        (perform x s).2 = (perform z s).2 := by
    obtain ⟨results, states⟩ := h s admitted
    rw [fewer.perform_eq admitted]
    refine ⟨?_, states⟩
    generalize (perform x s).1 = r, (perform y s).1 = q at results ⊢
    cases results with
    | ok seen => exact congrArg Except.ok seen
    | error e => rfl
  obtain ⟨results, states⟩ := viewed h fewer admitted
  obtain ⟨results', states'⟩ := viewed h' fewer' admitted'
  refine Prod.ext ?_ (states.trans states'.symm)
  have mapError_injective : Function.Injective (Except.mapError embed : Except ε γ → _) := by
    rintro (e | a) (e' | a') same
    · exact congrArg Except.error (injective (Except.error.inj same))
    · cases same
    · cases same
    · exact congrArg Except.ok (Except.ok.inj same)
  exact mapError_injective (results.trans results'.symm)

end

/-! ## Outcomes without texts -/

/-- One of several rolls without the text of the formula. -/
def MultiRollEntry.bare (e : MultiRollEntry) : MultiRollEntry := { e with roll := e.roll.bare }

/-- The outcome of a multiple roll without the texts of the formula. -/
def MultiRollOutcome.bare (o : MultiRollOutcome) : MultiRollOutcome :=
  { o with formula := "", entries := o.entries.map MultiRollEntry.bare }

namespace MultiRoll

theorem map_bare_markEntries {chosen : Option Nat} {classify : EvaluatedRoll → CritClassification}
    (textless : ∀ r : EvaluatedRoll, classify r.bare = classify r) (place : Nat)
    (rolls : List EvaluatedRoll) :
    (markEntries chosen classify place rolls).map MultiRollEntry.bare =
      markEntries chosen classify place (rolls.map EvaluatedRoll.bare) := by
  induction rolls generalizing place with
  | nil => rfl
  | cons r rs ih =>
    rw [markEntries, List.map_cons, List.map_cons, markEntries, textless, ih]
    rfl

/-- The texts of rolls decide nothing but the texts of the outcome. -/
theorem bare_outcomeOf (m : MultiRoll) (filter : DiceFilter) (rolls : List EvaluatedRoll) :
    (m.outcomeOf filter rolls).bare =
      (m.outcomeOf filter (rolls.map EvaluatedRoll.bare)).bare := by
  have totals : (rolls.map EvaluatedRoll.bare).map (·.total) = rolls.map (·.total) := by
    rw [List.map_map]
    rfl
  have marked (chosen : Option Nat) :
      markEntries chosen (·.classify m.critThreshold filter) 0 (rolls.map EvaluatedRoll.bare) =
        (markEntries chosen (·.classify m.critThreshold filter) 0 rolls).map
          MultiRollEntry.bare := (map_bare_markEntries (fun _ => rfl) 0 rolls).symm
  have dice (entries : List MultiRollEntry) :
      ((entries.map MultiRollEntry.bare).filter (!·.ignored)).flatMap (·.roll.dice) =
        (entries.filter (!·.ignored)).flatMap (·.roll.dice) := by
    rw [List.filter_map, List.flatMap_map]
    rfl
  have again (entries : List MultiRollEntry) :
      (entries.map MultiRollEntry.bare).map MultiRollEntry.bare =
        entries.map MultiRollEntry.bare := by
    rw [List.map_map]
    rfl
  unfold outcomeOf MultiRollOutcome.bare
  simp only [totals, marked, dice, again]

/-! ## Rolls of a formula -/

/-- The exact values of all rolls, up to a number that is not admitted. -/
def exactRolls (admits : ℚ → Bool) (m : MultiRoll) (b : Bindings) :
    Exactly ScriptedSource (List (ℚ × List DieOutcome)) := do
  let f ← (Formula.parse m.composed).mapError ExactError.formula
  ScriptedSource.times (Formula.evaluateExactly admits f b) m.rollCount

section

variable {m : MultiRoll} {f : Formula} {b : Bindings}

theorem exactRolls_eq (parsed : Formula.parse m.composed = .ok f) (admits : ℚ → Bool) :
    m.exactRolls admits b =
      ScriptedSource.times (Formula.evaluateExactly admits f b) m.rollCount := by
  unfold exactRolls
  rw [parsed]
  rfl

theorem resolve_eq (parsed : Formula.parse m.composed = .ok f) :
    (m.resolve b : Rolling ScriptedSource _) = do
      let rolls ← ScriptedSource.times (Formula.evaluate f b) m.rollCount
      return m.outcomeOf (filterOf f) rolls := by
  unfold resolve
  rw [parsed, ScriptedSource.evaluateTimes_eq parsed]
  rfl

/-- A single roll by a script, from the value of its formula and what is left of the script. -/
theorem perform_resolve_once (parsed : Formula.parse m.composed = .ok f) (once : m.rollCount = 1)
    {g : Formula} (substituted : Formula.substitute b f = .ok g) {s : ScriptedSource}
    {value : Double} {dice : List DieOutcome} {left : Script}
    (rolled : perform (Formula.evaluateFrom Partial.start g) s.script = (.ok (value, dice), left)) :
    perform (m.resolve b) s =
      (.ok (m.outcomeOf (filterOf f) [⟨Formula.render g, value.floor.toInteger, dice⟩]),
        ⟨left, s.evaluations + 1⟩) := by
  have evaluated : perform (RandomSource.evaluate m.composed b) s =
      (.ok ⟨Formula.render g, value.floor.toInteger, dice⟩, ⟨left, s.evaluations + 1⟩) := by
    rw [perform_evaluate_scripted parsed, Formula.perform_evaluate_of_ok substituted, rolled]
    rfl
  refine perform_resolve_ok_iff.2 ⟨f, _, parsed, ?_, rfl⟩
  rw [once]
  exact perform_evaluateTimes_succ_ok_iff.2 ⟨_, _, [], evaluated, rfl, rfl⟩

theorem exactRolls_of_substitute (parsed : Formula.parse m.composed = .ok f) {g : Formula}
    (substituted : Formula.substitute b f = .ok g) (admits : ℚ → Bool) :
    m.exactRolls admits b = ScriptedSource.times (Formula.exactly admits g) m.rollCount := by
  rw [exactRolls_eq parsed, Formula.evaluateExactly, substituted]
  rfl

theorem refines_exactRolls {admits wider : ℚ → Bool}
    (wide : ∀ q, admits q = true → wider q = true) (m : MultiRoll) (b : Bindings) :
    Refines (m.exactRolls wider b) (m.exactRolls admits b) := by
  cases parsed : Formula.parse m.composed with
  | error e =>
    unfold exactRolls
    rw [parsed]
    exact .throw (ExactError.formula e)
  | ok f =>
    have refined := (Formula.refines_evaluateExactly wide f b).times m.rollCount
    rw [List.forall₂_eq_eq_eq] at refined
    rw [exactRolls_eq parsed, exactRolls_eq parsed]
    exact refined

/-- A multiple roll tracks the exact one if each of its evaluations does. -/
theorem tracks_resolve (parsed : Formula.parse m.composed = .ok f)
    (passes : ∀ g, Formula.substitute b f = .ok g → Formula.PassTracks Script g) :
    Tracks .formula
      (fun o vs => o.bare = (m.outcomeOf (filterOf f) (vs.map Formula.floored)).bare)
      (m.resolve b : Rolling ScriptedSource _) (m.exactRolls Double.isDouble b) := by
  rw [resolve_eq parsed, exactRolls_eq parsed]
  refine ((Formula.tracks_evaluate passes).times m.rollCount).bind_left fun rolls vs each => ?_
  have floors : rolls.map EvaluatedRoll.bare = vs.map Formula.floored := by
    rwa [← List.forall₂_eq_eq_eq, List.forall₂_map_left_iff, List.forall₂_map_right_iff]
  refine .pure ?_
  rw [bare_outcomeOf, floors]

end

/-! ## Rolls of a die and of what is added -/

/-- The multiple roll with one more text that is added. -/
def adding (m : MultiRoll) (term : String) : MultiRoll := { m with terms := m.terms ++ [term] }

@[simp]
theorem rollCount_adding (m : MultiRoll) (term : String) :
    (m.adding term).rollCount = m.rollCount := rfl

theorem outcomeOf_adding (m : MultiRoll) (term : String) (filter : DiceFilter)
    {rolls : List EvaluatedRoll} (some : rolls ≠ []) :
    (m.adding term).outcomeOf filter rolls = m.outcomeOf filter rolls := by
  obtain ⟨roll, rolls, rfl⟩ := List.exists_cons_of_ne_nil some
  simp only [outcomeOf, adding, List.head?_cons, Option.map_some, Option.getD_some]

@[simp]
theorem bare_outcomeOf_adding (m : MultiRoll) (term : String) (filter : DiceFilter)
    (rolls : List EvaluatedRoll) :
    ((m.adding term).outcomeOf filter rolls).bare = (m.outcomeOf filter rolls).bare := by
  simp only [outcomeOf, adding, MultiRollOutcome.bare]

/-- A multiple roll of a die to which variables are added. -/
structure RollsDie (m : MultiRoll) (die : DiceTerm) (names : List String) : Prop where
  die : Formula.parse m.formula = .ok [.dice die]
  terms : m.terms = names.map ("@" ++ ·)
  named : ∀ name ∈ names, (Term.variable name).Sound

/-- A die and variables as formulas that are added. -/
def summands (die : DiceTerm) (names : List String) : List Formula :=
  [.dice die] :: names.map fun name => [.variable name]

/-- A die, variables and one more formula with a plus between each two. -/
def summed (die : DiceTerm) (names : List String) (f : Formula) : Formula :=
  Formula.sum (summands die names) ++ .operator .add :: f

section

variable {die : DiceTerm} {names : List String} {b b' : Bindings}

theorem filterOf_summed (f : Formula) : filterOf (summed die names f) = .faces [die.faces] := by
  cases names with
  | nil => rfl
  | cons name names => rfl

theorem substitute_summands (same : ∀ name ∈ names, b.get? name = b'.get? name) :
    Formula.substitute b (Formula.sum (summands die names)) =
      Formula.substitute b' (Formula.sum (summands die names)) := by
  refine Formula.substitute_congr _ fun path mem => same path ?_
  rw [Formula.paths_sum, summands, List.flatMap_cons, List.flatMap_map] at mem
  simpa [Formula.paths, Term.paths] using mem

theorem substitute_summed_eq_ok_iff {f g : Formula} :
    Formula.substitute b (summed die names f) = .ok g ↔
      ∃ base f', Formula.substitute b (Formula.sum (summands die names)) = .ok base ∧
        Formula.substitute b f = .ok f' ∧ g = base ++ .operator .add :: f' := by
  rw [summed, Formula.substitute_add]
  constructor
  · intro h
    obtain ⟨base, here, h⟩ := bind_eq_ok_iff.1 h
    obtain ⟨f', behind, made⟩ := bind_eq_ok_iff.1 h
    cases made
    exact ⟨base, f', here, behind, rfl⟩
  · rintro ⟨base, f', here, behind, rfl⟩
    rw [here, behind]
    rfl

/-- Two variables that are bound to the same text are replaced by the same. -/
theorem substitute_summed_congr (same : ∀ name ∈ names, b.get? name = b'.get? name)
    {path path' : String} (bound : b.get? path = b'.get? path') :
    Formula.substitute b (summed die names [.variable path]) =
      Formula.substitute b' (summed die names [.variable path']) := by
  rw [summed, summed, Formula.substitute_add, Formula.substitute_add, substitute_summands same]
  simp only [Formula.substitute, Term.substitute, bound]

end

namespace RollsDie

variable {m : MultiRoll} {die : DiceTerm} {names : List String} {b b' : Bindings}

theorem parse_adding (h : m.RollsDie die names) {text : String} {f : Formula}
    (parsed : Formula.parse text = .ok f) :
    Formula.parse (m.adding text).composed = .ok (summed die names f) := by
  have others : List.Forall₂ (fun part f => Formula.parse part = .ok f) m.terms
      (names.map fun name => [.variable name]) := by
    rw [h.terms, List.forall₂_map_left_iff, List.forall₂_map_right_iff, List.forall₂_same]
    exact fun name mem => Formula.parse_variable (h.named name mem)
  have parts : List.Forall₂ (fun part f => Formula.parse part = .ok f)
      (m.formula :: (m.terms ++ [text])) (summands die names ++ [f]) :=
    .cons h.die (List.rel_append others (.cons parsed .nil))
  have composed := Formula.parse_compose parts (List.cons_ne_nil _ _)
  have some : summands die names ≠ [] := List.cons_ne_nil _ _
  rwa [Formula.sum_append_singleton some] at composed

theorem evaluable (h : m.RollsDie die names) (g : Formula)
    (substituted : Formula.substitute b (Formula.sum (summands die names)) = .ok g) :
    Formula.Evaluable g := by
  refine Formula.evaluable_of_substitute_sum substituted (List.cons_ne_nil _ _) ?_
  refine List.forall_mem_cons.2 ⟨fun g here => ?_, List.forall_mem_map.2 fun name _ g here => ?_⟩
  · cases here
    exact Formula.evaluable_of_readAll h.die
  · exact Formula.evaluable_of_substitute_variable here

/-- The evaluation of a variable that is added tracks the exact one. -/
theorem passes_variable (h : m.RollsDie die names) (path : String) (g : Formula)
    (substituted : Formula.substitute b (summed die names [.variable path]) = .ok g) :
    Formula.PassTracks Script g := by
  obtain ⟨base, f', here, behind, rfl⟩ := substitute_summed_eq_ok_iff.1 substituted
  have added := Formula.evaluable_of_substitute_variable behind
  exact Formula.tracks_exactly ((h.evaluable base here).add added)

/-- The evaluation of a formula that is added tracks the exact one, its variables being bound to
nothing. -/
theorem passes_unbound (h : m.RollsDie die names) {f : Formula} (evaluable : Formula.Evaluable f)
    (unbound : ∀ path ∈ Formula.paths f, b.get? path = none) (g : Formula)
    (substituted : Formula.substitute b (summed die names f) = .ok g) :
    Formula.PassTracks Script g := by
  obtain ⟨base, f', here, behind, rfl⟩ := substitute_summed_eq_ok_iff.1 substituted
  have zeroed : Formula.substitute ∅ f = .ok f' :=
    (Formula.substitute_congr f unbound).symm.trans behind
  exact Formula.passTracks_add_of_substitute_empty (h.evaluable base here) evaluable zeroed

/-- Two variables that are bound to the same text come to the same when they are added. -/
theorem resolve_adding_congr (h : m.RollsDie die names) {path path' : String}
    (sound : (Term.variable path).Sound) (sound' : (Term.variable path').Sound)
    (same : ∀ name ∈ names, b.get? name = b'.get? name) (bound : b.get? path = b'.get? path')
    (s : ScriptedSource) :
    perform ((m.adding ("@" ++ path)).resolve b) s =
      perform ((m.adding ("@" ++ path')).resolve b') s := by
  have evaluated :
      (Formula.evaluate (summed die names [.variable path]) b : Rolling Script _) =
        Formula.evaluate (summed die names [.variable path']) b' := by
    unfold Formula.evaluate
    rw [substitute_summed_congr same bound]
  rw [resolve_eq (h.parse_adding (Formula.parse_variable sound)),
    resolve_eq (h.parse_adding (Formula.parse_variable sound')), evaluated, filterOf_summed,
    filterOf_summed, rollCount_adding, rollCount_adding]
  rcases rolled : perform (ScriptedSource.times
      (Formula.evaluate (summed die names [.variable path']) b') m.rollCount) s with ⟨e | rolls, s'⟩
  · rw [perform_bind_of_error rolled, perform_bind_of_error rolled]
  · have some : rolls ≠ [] := by
      rintro rfl
      have made := ScriptedSource.length_of_times rolled
      have one : 1 ≤ m.rollCount := Nat.le_max_left _ _
      rw [← made] at one
      exact absurd one (by decide)
    rw [perform_bind_of_ok rolled, perform_bind_of_ok rolled, outcomeOf_adding _ _ _ some,
      outcomeOf_adding _ _ _ some]

/-- A variable that is added and is bound to a text comes to the same as the text itself, but for
the reported texts, if the variables of the text are bound to nothing and the arithmetic of both
rolls is exact. -/
theorem bare_resolve_adding (h : m.RollsDie die names) {path text : String} {f : Formula}
    (sound : (Term.variable path).Sound) (same : ∀ name ∈ names, b.get? name = b'.get? name)
    (bound : b.get? path = some text) (parsed : Formula.parse text = .ok f)
    (unbound : ∀ path ∈ Formula.paths f, b'.get? path = none) {s : ScriptedSource}
    (exact : (perform ((m.adding ("@" ++ path)).exactRolls Double.isDouble b) s).1 ≠
      .error .notAdmitted)
    (exact' : (perform ((m.adding text).exactRolls Double.isDouble b') s).1 ≠
      .error .notAdmitted) :
    ((perform ((m.adding ("@" ++ path)).resolve b) s).1.map MultiRollOutcome.bare,
        (perform ((m.adding ("@" ++ path)).resolve b) s).2) =
      ((perform ((m.adding text).resolve b') s).1.map MultiRollOutcome.bare,
        (perform ((m.adding text).resolve b') s).2) := by
  have read := h.parse_adding (Formula.parse_variable sound)
  have read' := h.parse_adding parsed
  -- with any numbers admitted, both rolls have the same exact values
  have values : (m.adding ("@" ++ path)).exactRolls anyNumber b =
      (m.adding text).exactRolls anyNumber b' := by
    rw [exactRolls_eq read, exactRolls_eq read', rollCount_adding, rollCount_adding]
    refine congrArg (ScriptedSource.times · m.rollCount) ?_
    exact Formula.evaluateExactly_add (substitute_summands same) h.evaluable
      (Bindings.formula_of_parse bound parsed) unbound
  have tracks := tracks_resolve (b := b) read (h.passes_variable path)
  have tracks' := tracks_resolve read'
    (h.passes_unbound (Formula.evaluable_of_readAll parsed) unbound)
  simp only [filterOf_summed, bare_outcomeOf_adding] at tracks tracks'
  have doubles (q : ℚ) (_ : Double.isDouble q = true) : anyNumber q = true := rfl
  have fewer := refines_exactRolls doubles (m.adding ("@" ++ path)) b
  rw [values] at fewer
  exact tracks.agree (fun _ _ => ExactError.formula.inj) tracks' fewer
    (refines_exactRolls doubles (m.adding text) b') exact exact'

end RollsDie

end MultiRoll

end Tabletop
