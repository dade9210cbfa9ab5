import Mathlib
import Tabletop.Proofs.Dice.Divisors
import Tabletop.Proofs.Formula.CritDice
import Tabletop.Proofs.Run.Maxima
/-!
# What can fail after the dice

Once the base dice of a damage roll are rolled, its maximum, its critical dice and their maximum are
worked out from the text of the roll. All of these texts can be read, unless a variable is bound to
the least integer. What can still go wrong is a division: with other faces a divisor can be zero
that was not zero before.
-/

namespace Tabletop

open Playing

/-- A text whose formula divides at some depth. -/
def DividesText (text : String) : Prop :=
  ∃ f, Formula.parse text = .ok f ∧ .operator .divide ∈ Formula.nested f

/-- A computation that fails, if it does, by a division by zero where there is a division. -/
def FailsByDivision {σ α : Type} (divides : Prop) (x : Resolving σ α) (s : σ) : Prop :=
  ∀ e s', perform x s = (.error e, s') → e = .formula .divisionByZero ∧ divides

namespace FailsByDivision

variable {σ α β : Type} {divides : Prop} {s : σ}

theorem pure (a : α) : FailsByDivision divides (Pure.pure a : Resolving σ α) s := nofun

theorem bind {x : Resolving σ α} {f : α → Resolving σ β} (first : FailsByDivision divides x s)
    (second : ∀ a u, perform x s = (.ok a, u) → FailsByDivision divides (f a) u) :
    FailsByDivision divides (x >>= f) s := by
  intro e s' failed
  rcases perform_bind_error_iff.1 failed with failed | ⟨a, u, done, failed⟩
  · exact first e s' failed
  · exact second a u done e s' failed

theorem map {x : Resolving σ α} (h : FailsByDivision divides x s) (f : α → β) :
    FailsByDivision divides (f <$> x) s := by
  intro e s' failed
  rw [perform_map] at failed
  rcases done : perform x s with ⟨e' | a, u⟩
  · rw [done] at failed
    cases failed
    exact h _ _ done
  · rw [done] at failed
    cases failed

/-- It is enough to look at the errors of the formula. -/
theorem of_mapError {x : Resolving σ α} {made : Except FormulaError α} {u : σ}
    (result : perform x s = (made.mapError RollError.formula, u))
    (h : ∀ e, made = .error e → e = .divisionByZero ∧ divides) : FailsByDivision divides x s := by
  intro e s' failed
  rw [result] at failed
  cases made with
  | error e' =>
    cases failed
    obtain ⟨rfl, divided⟩ := h e' rfl
    exact ⟨rfl, divided⟩
  | ok r => cases failed

theorem maximum {text : String}
    (h : ∀ e, EvaluatedBy text ∅ (.error e) → e = .divisionByZero ∧ divides) :
    FailsByDivision divides (Tabletop.maximum text ∅ : Resolving σ EvaluatedRoll) s :=
  of_mapError rfl fun e made => h e (made ▸ evaluatedBy_maximize text ∅)

theorem rolling [RandomSource σ] [DiceSource σ] {text : String}
    (h : ∀ e, EvaluatedBy text ∅ (.error e) → e = .divisionByZero ∧ divides) :
    FailsByDivision divides (Tabletop.rolling (RandomSource.evaluate text ∅) :
      Resolving σ EvaluatedRoll) s :=
  of_mapError (perform_rolling _ s) fun e made => h e (made ▸ DiceSource.evaluatedBy text ∅ s)

end FailsByDivision

namespace RunContext

variable {c : RunContext} {item : Item} {base : EvaluatedRoll}

/-- What critical dice have beyond the base dice can be read: bonus dice, one more die in each term,
and what the base dice fell short of. -/
structure ExtrasReadable (c : RunContext) (item : Item) (base : EvaluatedRoll) : Prop where
  bonus : ∀ text ∈ item.crit.bonusDice, Text.trim text = "" ∨ ∃ f, Formula.parse text = .ok f
  savage : (item.isWeaponAttack && c.actor.traits.savageAttacks) = true →
    ∀ f, Formula.parse base.formula = .ok f →
      ∀ d, .dice d ∈ Formula.nested (c.critTerms item f) → d.number ≤ maxDice
  shortfall : c.critBehavior = .maximizeBoth →
    ∀ top, maximize base.formula ∅ = .ok top → top.total - base.total ≤ maxConstant

/-- The texts behind the dice of a damage roll divide somewhere. -/
def Divides (item : Item) (base : EvaluatedRoll) : Prop :=
  DividesText base.formula ∨ ∃ text ∈ item.crit.bonusDice, DividesText text

/-- A text that is read, and that divides only where the damage roll does. -/
def Follows (item : Item) (base : EvaluatedRoll) (text : String) : Prop :=
  ∃ f, Formula.parse text = .ok f ∧ (.operator .divide ∈ Formula.nested f → Divides item base)

theorem Follows.error_eq {text : String} {e : FormulaError} (h : Follows item base text)
    (evaluated : EvaluatedBy text ∅ (.error e)) : e = .divisionByZero ∧ Divides item base := by
  obtain ⟨f, parsed, divides⟩ := h
  obtain ⟨division, mem⟩ := evaluated.error_eq parsed
  exact ⟨division, divides mem⟩

theorem Follows.of_sum {text : String} {f g : Formula}
    (parsed : Formula.parse text = .ok (f ++ .operator .add :: g))
    (first : .operator .divide ∈ Formula.nested f → Divides item base)
    (second : .operator .divide ∈ Formula.nested g → Divides item base) :
    Follows item base text :=
  ⟨_, parsed, fun mem => (Formula.divide_mem_of_sum mem).elim first second⟩

theorem follows_critTerms {f : Formula} (parsed : Formula.parse base.formula = .ok f)
    (extras : c.ExtrasReadable item base) :
    Follows item base (Formula.render (c.critTerms item f)) := by
  obtain ⟨alternating, sound⟩ := Formula.sound_of_parse parsed
  have alternating' := Formula.alternates_diceOnly alternating
  have sound' : ∀ t ∈ Formula.nested (Formula.diceOnly f), t.Sound ∧ t.InRange :=
    fun t mem => sound t (Formula.mem_nested_of_diceOnly f mem)
  have divides (mem : .operator .divide ∈ Formula.nested (Formula.diceOnly f)) :
      Divides item base := Or.inl ⟨f, parsed, Formula.mem_nested_of_diceOnly f mem⟩
  by_cases savage : (item.isWeaponAttack && c.actor.traits.savageAttacks) = true
  · have few := extras.savage savage f parsed
    rw [critTerms, if_pos savage] at few ⊢
    exact ⟨_, Formula.parse_render_of_sound ((Formula.alternates_alter _).trans alternating')
      (Formula.sound_alter sound' few), fun mem => divides (Formula.divide_mem_of_alter mem)⟩
  · rw [critTerms, if_neg savage]
    exact ⟨_, Formula.parse_render_of_sound alternating' sound', divides⟩

theorem critFormula?_follows {f : Formula} (parsed : Formula.parse base.formula = .ok f)
    (extras : c.ExtrasReadable item base) {text : String}
    (found : c.critFormula? item base.formula = .ok (some text)) : Follows item base text := by
  rw [critFormula?_eq parsed] at found
  split at found
  · have dice := follows_critTerms parsed extras
    have same := Option.some.inj (Except.ok.inj found)
    cases bonus : item.crit.bonusDice with
    | none =>
      rw [bonus, Option.elim_none] at same
      exact same ▸ dice
    | some written =>
      rw [bonus, Option.elim_some] at same
      rw [← same]
      obtain ⟨g, read, divides⟩ := dice
      rcases extras.bonus written bonus with blank | ⟨h, parsed'⟩
      · exact ⟨g, Formula.parse_compose_blank read blank, divides⟩
      · exact .of_sum (Formula.parse_compose_pair read parsed') divides
          fun mem => Or.inr ⟨written, bonus, h, parsed', mem⟩
  · cases found

theorem critText_follows {text : String} (h : Follows item base text) {top : EvaluatedRoll}
    (highest : maximize base.formula ∅ = .ok top) (extras : c.ExtrasReadable item base) :
    Follows item base (critText c.critBehavior text base top.total) := by
  unfold critText
  split
  · next short =>
    obtain ⟨f, parsed, divides⟩ := h
    have range := extras.shortfall short.1 top highest
    have number := Formula.parse_toString (Int.le_of_lt short.2) range
    refine .of_sum (Formula.parse_compose_pair parsed number) divides fun mem => ?_
    cases List.mem_singleton.1 mem
  · exact h

/-! ## Damage rolls -/

variable {σ : Type} [RandomSource σ] [DiceSource σ] {s : σ}

theorem rollCrit_failsByDivision {behavior : CritBehavior} {text : String} {maxBase : Int}
    (h : Follows item base (critText behavior text base maxBase)) :
    FailsByDivision (Divides item base) (rollCrit behavior text base maxBase) s := by
  rw [rollCrit_eq]
  have highest := FailsByDivision.maximum (s := s) fun e => h.error_eq (e := e)
  cases behavior with
  | none => exact .pure none
  | bonusDiceOnly => exact (FailsByDivision.rolling fun e => h.error_eq).map some
  | maximizeBase => exact highest.map some
  | maximizeBoth => exact highest.map some

theorem critDice_failsByDivision {roll : DamageRoll} {isCrit : Bool} {f : Formula}
    {top : EvaluatedRoll} (parsed : Formula.parse base.formula = .ok f)
    (highest : maximize base.formula ∅ = .ok top) (extras : c.ExtrasReadable roll.item base) :
    FailsByDivision (Divides roll.item base) (c.critDice roll isCrit base top.total) s := by
  unfold critDice
  split
  · have found : c.critFormula? roll.item base.formula = _ := critFormula?_eq parsed
    refine .bind ?_ fun formula u made => ?_
    · intro e s' failed
      rw [perform_lift, found] at failed
      cases failed
    · rw [perform_lift] at made
      obtain ⟨made, -⟩ := Prod.mk.inj made
      cases formula with
      | none => exact .pure none
      | some text =>
        have follows := critFormula?_follows parsed extras (mapError_eq_ok_iff.1 made)
        exact rollCrit_failsByDivision (critText_follows follows highest extras)
  · exact .pure none

omit [RandomSource σ] [DiceSource σ] in
/-- The maximum of critical dice that were rolled. -/
theorem critMaximum_failsByDivision {crit : Option EvaluatedRoll}
    (h : ∀ roll ∈ crit, ∃ text, Follows item base text ∧ RolledFrom text ∅ roll) :
    FailsByDivision (Divides item base) (critMaximum crit) s := by
  cases crit with
  | none => exact .pure none
  | some roll =>
    obtain ⟨text, ⟨f, parsed, divides⟩, rolled⟩ := h roll rfl
    refine .bind (.maximum fun e evaluated => ?_) fun top u _ => .pure _
    obtain ⟨division, mem⟩ := evaluated.error_eq_of_rolledFrom rolled parsed
    exact ⟨division, divides mem⟩

/-- What comes after the base dice of a damage roll. -/
theorem resolveRoll_failsByDivision {roll : DamageRoll} {p : Progress} {u s' : σ} {e : RollError}
    (rolled : perform (RandomSource.evaluate roll.formula roll.bindings) s = (.ok base, u))
    (avoids : roll.bindings.AvoidsLeast) (extras : c.ExtrasReadable roll.item base)
    (failed : perform (c.resolveRoll roll p) s = (.error e, s')) :
    e = .formula .divisionByZero ∧ Divides roll.item base := by
  obtain ⟨f, parsed⟩ := (DiceSource.rolledFrom rolled).exists_parse avoids
  have base_follows : Follows roll.item base base.formula :=
    ⟨f, parsed, fun mem => Or.inl ⟨f, parsed, mem⟩⟩
  rw [resolveRoll_eq, perform_bind_of_ok (perform_rolling_ok_iff.2 rolled)] at failed
  refine FailsByDivision.bind (.maximum fun e => base_follows.error_eq) (fun top v shown => ?_) e s'
    failed
  obtain ⟨highest, -⟩ := perform_maximum_ok_iff.1 shown
  refine .bind (critDice_failsByDivision parsed highest extras) fun crit w made => ?_
  refine .bind (critMaximum_failsByDivision fun again mem => ?_) fun maxCrit x _ => .pure _
  rw [Option.mem_def.1 mem] at made
  obtain ⟨text, found, made⟩ := rollCrit_of_critDice made
  have follows := critFormula?_follows parsed extras found
  exact ⟨_, critText_follows follows highest extras, rolledFrom_of_rollCrit made⟩

/-- Whether a step fails with an error only by a division by zero, if its base dice were rolled. -/
def StopsByDivision (c : RunContext) (step : Step) (s : σ) (e : RollError) : Prop :=
  ∀ (roll : DamageRoll) (base : EvaluatedRoll) (u : σ),
    c.task step = .line (.ok (some roll)) ∨ c.task step = .other (some roll) →
    perform (RandomSource.evaluate roll.formula roll.bindings) s = (.ok base, u) →
    roll.bindings.AvoidsLeast → c.ExtrasReadable roll.item base →
    e = .formula .divisionByZero ∧ Divides roll.item base

theorem stopsByDivision_of_resolveStep {step : Step} {p : Progress} {s' : σ} {e : RollError}
    (failed : perform (c.resolveStep step p) s = (.error e, s')) : c.StopsByDivision step s e := by
  intro roll base u asked rolled avoids extras
  rw [resolveStep_eq] at failed
  have aftermath (q : Progress) (failed : perform (c.resolveRoll roll q) s = (.error e, s')) :=
    resolveRoll_failsByDivision rolled avoids extras failed
  rcases asked with asked | asked
  · rw [asked] at failed
    rcases perform_bind_error_iff.1 failed with unfound | ⟨roll', v, found, failed⟩
    · cases unfound
    · cases found
      rcases perform_bind_error_iff.1 failed with failed | ⟨_, _, -, made⟩
      · exact aftermath _ failed
      · cases made
  · rw [asked] at failed
    rcases perform_bind_error_iff.1 failed with failed | ⟨_, _, -, made⟩
    · exact aftermath _ failed
    · cases made

end RunContext

/-- What can fail once dice were rolled, where no variable is bound to the least integer. The text
of the roll is read as the formula that was evaluated, and it has a maximum exactly if none of its
divisors is zero with the highest faces; otherwise the maximum fails with a division by zero. And if
a run is given up at a step whose base dice were rolled, then by a division by zero, and only if
there is a division in what the step rolls, as long as the critical dice have nothing in addition
that cannot be read. -/
theorem rolled_fails_only_by_division {σ : Type} [RandomSource σ] [DiceSource σ] :
    (∀ (text : String) (b : Bindings) (s s' : σ) (r : EvaluatedRoll),
      perform (RandomSource.evaluate text b) s = (.ok r, s') → b.AvoidsLeast →
      ∃ f g, Formula.parse text = .ok f ∧ Formula.substitute b f = .ok g ∧
        r.formula = Formula.render g ∧ Formula.parse r.formula = .ok g ∧
        ((∃ top, maximize r.formula ∅ = .ok top) ↔
          ∀ u ∈ Formula.divisors none g, u.vanishes = false) ∧
        ((∃ u ∈ Formula.divisors none g, u.vanishes = true) →
          maximize r.formula ∅ = .error .divisionByZero)) ∧
    (∀ (c : RunContext) (step : Step) (p : Progress) (s s' : σ) (e : RollError),
      perform (c.resolveStep step p) s = (.error e, s') → c.StopsByDivision step s e) ∧
    ∀ {η : Type} [RollHost η] (config : PipelineConfig) (itemId : String)
      (requests : List RollRequest) (params : RollParams) (t t' : Table σ η) (p : Preparation)
      (host : η) (e : RollError),
      Prepared itemId requests params t.actor t.host p host →
      perform (run config itemId requests params) t = (.error e, t') →
      let c := p.context config params t.actor
      (∃ outcome, perform (c.resolvePlan p.steps) t.source = (.ok outcome, t'.source)) ∨
      ∃ earlier step q u,
        earlier.map (·.step) ++ [step] <+: p.steps ++ [.request (.critExtra none)] ∧
        c.Resolves {} t.source earlier q u ∧
        perform (c.resolveStep step q) u = (.error e, t'.source) ∧ c.StopsByDivision step u e := by
  refine ⟨fun text b s s' r rolled avoids => ?_,
    fun c step p s s' e failed => RunContext.stopsByDivision_of_resolveStep failed, ?_⟩
  · obtain ⟨parsed, substituted, -⟩ := DiceSource.rolledFrom rolled
    have reread := Formula.parse_substituted parsed substituted avoids
    have there := exists_maximum_iff reread
    refine ⟨_, _, parsed, substituted, rfl, reread, there, fun ⟨u, mem, zero⟩ => ?_⟩
    refine maximize_eq_divisionByZero reread fun top => ?_
    cases zero.symm.trans (there.1 top u mem)
  · intro η _ config itemId requests params t t' p host e prepared failed c
    rw [perform_run, prepare_eq_ok_iff.2 prepared] at failed
    simp only at failed
    rcases resolved : perform (c.resolvePlan p.steps) t.source with ⟨e' | outcome, source⟩
    · rw [resolved] at failed
      cases failed
      obtain ⟨earlier, step, q, u, visited, resolves, failed⟩ :=
        RunContext.perform_resolvePlan_error resolved
      exact Or.inr ⟨earlier, step, q, u, visited, resolves, failed,
        RunContext.stopsByDivision_of_resolveStep failed⟩
    · rw [resolved] at failed
      simp only at failed
      split at failed
      · cases failed
        exact Or.inl ⟨outcome, rfl⟩
      · cases failed

/-! ## A jinx -/

/-- A weapon whose damage cannot be divided when its die shows a four. -/
def jinx : Item where
  id := "jinx"
  name := "Jinx"
  kind := .weapon
  damage := ⟨[⟨"0 / (1d4 - 4)", none⟩], none⟩

def jinxed : Table ScriptedSource StaticHost where
  actor := { id := "ogre", name := "Ogre", items := [jinx] }
  source := .ofFaces [1]
  host := {}

def jinxLine : DamageStep := ⟨0, false, .auto, none, .primary⟩

def jinxing : Preparation := ⟨jinx, none, [.damage jinxLine]⟩

def jinxer : RunContext := jinxing.context {} {} jinxed.actor

def jinxRoll : DamageRoll := jinxer.lineRoll jinxLine jinx ⟨"0 / (1d4 - 4)", none⟩ "0 / (1d4 - 4)"

def jinxTerms : Formula :=
  [.number 0, .operator .divide,
    .group [.dice ⟨1, 4, []⟩, .operator .subtract, .number 4]]

/-- What the dice of the jinx come to when the die shows a one. -/
def jinxBase : EvaluatedRoll := ⟨"0 / (1d4 - 4)", 0, [⟨4, [⟨1, true⟩]⟩]⟩

theorem parse_jinx : Formula.parse "0 / (1d4 - 4)" = .ok jinxTerms :=
  Formula.parse_render_of_sound (f := jinxTerms) rfl (by decide)

/-- The divisor of the jinx is zero if its die shows a four. -/
theorem jinx_vanishes : ∃ u ∈ Formula.divisors none jinxTerms, u.vanishes = true := by
  decide +kernel

theorem jinx_rolled (b : Bindings) :
    perform (RandomSource.evaluate "0 / (1d4 - 4)" b) jinxed.source =
      (.ok jinxBase, ⟨⟨[]⟩, 1⟩) := by
  have unbound : Formula.substitute b jinxTerms = .ok jinxTerms := rfl
  rw [perform_evaluate_scripted parse_jinx, Formula.perform_evaluate_of_ok unbound]
  decide +kernel

theorem maximize_jinx : maximize "0 / (1d4 - 4)" ∅ = .error .divisionByZero := by
  refine maximize_eq_divisionByZero parse_jinx fun top => ?_
  obtain ⟨u, mem, zero⟩ := jinx_vanishes
  cases zero.symm.trans ((exists_maximum_iff parse_jinx).1 top u mem)

theorem jinx_task : jinxer.task (.damage jinxLine) = .line (.ok (some jinxRoll)) := by
  refine congrArg Task.line (RunContext.damageRoll?_eq_some_iff.2
    ⟨jinx, ⟨"0 / (1d4 - 4)", none⟩, "0 / (1d4 - 4)", rfl, rfl, ?_, ?_, rfl⟩)
  · decide
  · exact eq_ok_of_toOption (by decide)

theorem jinx_fails :
    perform (jinxer.resolveStep (.damage jinxLine) {}) jinxed.source =
      (.error (.formula .divisionByZero), ⟨⟨[]⟩, 1⟩) := by
  rw [RunContext.resolveStep_eq, jinx_task]
  refine perform_bind_error_iff.2 (Or.inr ⟨_, _, rfl, ?_⟩)
  refine perform_bind_error_iff.2 (Or.inl ?_)
  rw [RunContext.resolveRoll_eq]
  have rolled := perform_rolling_ok_iff.2 (jinx_rolled jinxRoll.bindings)
  refine perform_bind_error_iff.2 (Or.inr ⟨jinxBase, _, rolled, ?_⟩)
  refine perform_bind_error_iff.2 (Or.inl ?_)
  change ((maximize "0 / (1d4 - 4)" ∅).mapError RollError.formula, _) = _
  rw [maximize_jinx]
  rfl

theorem jinx_prepared :
    Prepared "jinx" [.damage {}] {} jinxed.actor jinxed.host jinxing jinxed.host :=
  ⟨rfl, rfl, rfl, rfl⟩

theorem jinx_unresolved : perform (jinxer.resolvePlan jinxing.steps) jinxed.source =
    (.error (.formula .divisionByZero), ⟨⟨[]⟩, 1⟩) :=
  perform_bind_of_error (perform_bind_of_error jinx_fails _) _

theorem jinx_given_up : perform (run {} "jinx" [.damage {}] {}) jinxed =
    (.error (.formula .divisionByZero), { jinxed with source := ⟨⟨[]⟩, 1⟩ }) :=
  perform_run_eq_error_iff.2 (GivenUp.resolving jinx_prepared jinx_unresolved)

theorem jinx_extrasReadable : jinxer.ExtrasReadable jinx jinxBase := ⟨nofun, nofun, nofun⟩

/-- The jinx was rolled, and its maximum, its step and the run fail by a division by zero. -/
theorem jinx_fails_only_by_division :
    perform (RandomSource.evaluate "0 / (1d4 - 4)" jinxRoll.bindings) jinxed.source =
        (.ok jinxBase, ⟨⟨[]⟩, 1⟩) ∧
      jinxRoll.bindings.AvoidsLeast ∧
      maximize jinxBase.formula ∅ = .error .divisionByZero ∧
      perform (jinxer.resolveStep (.damage jinxLine) {}) jinxed.source =
        (.error (.formula .divisionByZero), ⟨⟨[]⟩, 1⟩) ∧
      RunContext.Divides jinx jinxBase ∧
      perform (run {} "jinx" [.damage {}] {}) jinxed =
        (.error (.formula .divisionByZero), { jinxed with source := ⟨⟨[]⟩, 1⟩ }) ∧
      ∃ (step : Step) (u : ScriptedSource),
        jinxer.StopsByDivision step u (.formula .divisionByZero) := by
  have rolled := jinx_rolled jinxRoll.bindings
  have avoids : jinxRoll.bindings.AvoidsLeast := by decide
  obtain ⟨texts, steps, runs⟩ := rolled_fails_only_by_division (σ := ScriptedSource)
  obtain ⟨f, g, parsed, substituted, -, -, -, fails⟩ := texts _ _ _ _ _ rolled avoids
  cases parsed.symm.trans parse_jinx
  cases substituted
  have stops := steps jinxer (.damage jinxLine) {} _ _ _ jinx_fails
  obtain ⟨-, divides⟩ := stops jinxRoll jinxBase _ (Or.inl jinx_task) rolled avoids
    jinx_extrasReadable
  refine ⟨rolled, avoids, fails jinx_vanishes, jinx_fails, divides, jinx_given_up, ?_⟩
  rcases runs {} "jinx" [.damage {}] {} _ _ _ _ _ jinx_prepared jinx_given_up with
    ⟨outcome, resolved⟩ | ⟨earlier, step, q, u, -, -, -, stopped⟩
  · cases resolved.symm.trans jinx_unresolved
  · exact ⟨step, u, stopped⟩

/-! ## Critical dice that cannot be read -/

theorem RunContext.perform_resolveRoll_of_unreadable {σ : Type} [RandomSource σ] {c : RunContext}
    {roll : DamageRoll} {p : Progress} {base top : EvaluatedRoll} {text : String} {e : FormulaError}
    {s u : σ}
    (rolled : perform (RandomSource.evaluate roll.formula roll.bindings) s = (.ok base, u))
    (highest : maximize base.formula ∅ = .ok top) (wants : c.wantsCrit p.isCrit roll.crit = true)
    (behavior : c.critBehavior = .maximizeBase)
    (written : c.critFormula? roll.item base.formula = .ok (some text))
    (unreadable : Formula.parse text = .error e) :
    perform (c.resolveRoll roll p) s = (.error (.formula e), u) := by
  have failed : maximize text ∅ = .error e := by
    unfold maximize evaluateText
    rw [unreadable]
    rfl
  rw [resolveRoll_eq]
  refine perform_bind_error_iff.2 (Or.inr ⟨base, u, perform_rolling_ok_iff.2 rolled, ?_⟩)
  refine perform_bind_error_iff.2 (Or.inr ⟨top, u, perform_maximum_ok_iff.2 ⟨highest, rfl⟩, ?_⟩)
  refine perform_bind_error_iff.2 (Or.inl ?_)
  rw [critDice, if_pos wants]
  refine perform_bind_error_iff.2 (Or.inr ⟨some text, u, ?_, ?_⟩)
  · rw [perform_lift, written]
    rfl
  · dsimp only
    rw [behavior]
    change perform (some <$> maximum text ∅) u = _
    rw [perform_map]
    change (((maximize text ∅).mapError RollError.formula).map some, u) = _
    rw [failed]
    rfl

/-- A weapon that rolls as many dice as a term can have. -/
def maul : Item where
  id := "maul"
  name := "Maul"
  kind := .weapon
  actionType := some .meleeWeapon
  damage := ⟨[⟨"1000d6", none⟩], none⟩

/-- A weapon with bonus dice that are no formula. -/
def relic : Item where
  id := "relic"
  name := "Relic"
  kind := .weapon
  damage := ⟨[⟨"1000d6", none⟩], none⟩
  crit := { bonusDice := some "1d" }

/-- The roll of a thousand dice that are critical, and maximized then. -/
def thousand (item : Item) : RunContext × DamageRoll :=
  let c : RunContext := Preparation.context ⟨item, none, []⟩ { critBehavior := .maximizeBase } {}
    { id := "ogre", name := "Ogre", traits := { savageAttacks := true } }
  (c, c.lineRoll ⟨0, false, .always, none, .primary⟩ item ⟨"1000d6", none⟩ "1000d6")

theorem parse_thousand : Formula.parse "1000d6" = .ok [.dice ⟨1000, 6, []⟩] :=
  Formula.parse_render_of_sound (f := [.dice ⟨1000, 6, []⟩]) rfl (by decide)

theorem thousand_rolled (b : Bindings) (s : ScriptedSource) :
    ∃ base u, perform (RandomSource.evaluate "1000d6" b) s = (.ok base, u) ∧
      base.formula = "1000d6" := by
  have unbound : Formula.substitute b [.dice ⟨1000, 6, []⟩] = .ok [.dice ⟨1000, 6, []⟩] := rfl
  rw [perform_evaluate_scripted parse_thousand, Formula.perform_evaluate_of_ok unbound]
  rcases evaluated : perform (Formula.evaluateFrom Partial.start [.dice ⟨1000, 6, []⟩]) s.script
    with ⟨e | r, left⟩
  · obtain ⟨-, u, mem, -⟩ :=
      Formula.zero_of_evaluateFrom _ (Formula.few_of_parse parse_thousand) evaluated
    cases mem
  · have shown : Formula.render [.dice ⟨1000, 6, []⟩] = "1000d6" := by decide
    exact ⟨_, _, rfl, shown⟩

/-- If its critical dice cannot be read, the roll of a thousand dice is given up after them. -/
theorem thousand_given_up {item : Item} {text : String} {e : FormulaError} (s : ScriptedSource)
    (written : (thousand item).1.critFormula? item "1000d6" = .ok (some text))
    (unreadable : Formula.parse text = .error e) :
    ∃ base u,
      perform (RandomSource.evaluate "1000d6" (thousand item).2.bindings) s = (.ok base, u) ∧
      perform ((thousand item).1.resolveRoll (thousand item).2 {}) s =
        (.error (.formula e), u) := by
  obtain ⟨base, u, rolled, shown⟩ := thousand_rolled (thousand item).2.bindings s
  obtain ⟨top, highest⟩ := (exists_maximum_iff parse_thousand).2 (List.forall_mem_nil _)
  rw [← shown] at highest written
  exact ⟨base, u, rolled,
    RunContext.perform_resolveRoll_of_unreadable rolled highest rfl rfl written unreadable⟩

/-- What was rolled need not have a maximum, and critical dice need not be readable: a divisor that
was not zero before is zero with the highest face, a thousand dice cannot have one more, and bonus
dice can be any text. -/
theorem given_up_after_dice :
    (perform (RandomSource.evaluate "0 / (1d4 - 4)" ∅) jinxed.source =
        (.ok jinxBase, ⟨⟨[]⟩, 1⟩) ∧
      maximize jinxBase.formula ∅ = .error .divisionByZero ∧
      ∃ t', perform (run {} "jinx" [.damage {}] {}) jinxed =
        (.error (.formula .divisionByZero), t')) ∧
    (∃ base u,
      perform (RandomSource.evaluate "1000d6" (thousand maul).2.bindings) jinxed.source =
        (.ok base, u) ∧
      perform ((thousand maul).1.resolveRoll (thousand maul).2 {}) jinxed.source =
        (.error (.formula (.invalidDice "1001d")), u)) ∧
    ∃ base u,
      perform (RandomSource.evaluate "1000d6" (thousand relic).2.bindings) jinxed.source =
        (.ok base, u) ∧
      perform ((thousand relic).1.resolveRoll (thousand relic).2 {}) jinxed.source =
        (.error (.formula (.unexpectedChar 10 'd')), u) := by
  refine ⟨⟨jinx_rolled ∅, maximize_jinx, _, jinx_given_up⟩, ?_, ?_⟩
  · have written : (thousand maul).1.critFormula? maul "1000d6" = .ok (some "1001d6") :=
      (RunContext.critFormula?_eq parse_thousand).trans (congrArg Except.ok (by decide))
    exact thousand_given_up _ written (by cbv)
  · have written : (thousand relic).1.critFormula? relic "1000d6" = .ok (some "1000d6 + 1d") :=
      (RunContext.critFormula?_eq parse_thousand).trans (congrArg Except.ok (by decide))
    exact thousand_given_up _ written (by cbv)

/-! ## The least integer -/

theorem maximize_leastConstant :
    maximize (Formula.render [.number leastConstant]) ∅ =
      .error (.invalidDice "9223372036854775808") := by
  have unreadable : Formula.parse (Formula.render [.number leastConstant]) =
      .error (.invalidDice "9223372036854775808") := by cbv
  unfold maximize evaluateText
  rw [unreadable]
  rfl

/-- A variable that is bound to the least integer is evaluated, whatever the roller, and then the
text of the roll cannot be read: its constant is one too great. -/
theorem rolled_leastConstant {σ : Type} [Roller σ] {path : String} {b : Bindings}
    (sound : (Term.variable path).Sound) (least : b.formula path = .ok [.number leastConstant])
    (s : σ) :
    ∃ r, perform (evaluateText ("@" ++ path) b) s = (.ok r, s) ∧
      r.formula = Formula.render [.number leastConstant] ∧
      maximize r.formula ∅ = .error (.invalidDice "9223372036854775808") := by
  have substituted : Formula.substitute b [.variable path] = .ok [.number leastConstant] := by
    rw [Formula.substitute, Term.substitute_variable, least]
    rfl
  have number (n : Int) :
      ∃ v, perform (Formula.evaluateFrom Partial.start [.number n] : Rolling σ _) s =
        (.ok (v, []), s) := ⟨_, rfl⟩
  obtain ⟨v, evaluated⟩ := number leastConstant
  have rolled := perform_evaluateText (Formula.parse_variable sound) b s
  rw [Formula.perform_evaluate_of_ok substituted, evaluated] at rolled
  exact ⟨_, rolled, rfl, maximize_leastConstant⟩

example : ((∅ : Bindings).insertInteger "depth" leastConstant).formula "depth" =
    .ok [.number leastConstant] := by decide +kernel

end Tabletop
