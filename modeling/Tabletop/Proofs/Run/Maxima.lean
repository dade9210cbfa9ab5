import Mathlib
import Tabletop.Proofs.Dice.Trend
import Tabletop.Proofs.Run.Accounting
/-!
# The maxima of a run

A damage entry has its highest totals beside its rolls. They are what comes of the reported texts
when every die shows its highest face, and no total is above them if the text rises with its dice.
Where dice are subtracted, or divided by, a low face can give more than that.
-/

namespace Tabletop

open Playing

/-- The total that a roll is reported with is the one with the highest faces, and it is a bound for
formulas that rise with their dice. -/
structure EvaluatedRoll.CappedBy (r : EvaluatedRoll) (top : Int) : Prop where
  shown : ∃ highest, maximize r.formula ∅ = .ok highest ∧ highest.total = top
  bound : ∃ f, Formula.parse r.formula = .ok f ∧ (f.Rises → r.total ≤ top)

/-- The maxima of a damage entry; critical dice that are maximized come to theirs. -/
structure DamageEntry.Capped (d : DamageEntry) (behavior : CritBehavior) : Prop where
  base : d.base.CappedBy d.maxBase
  crit : ∀ crit ∈ d.crit, ∃ top, d.maxCrit = some top ∧ crit.CappedBy top ∧
    (behavior.maximizes = true → crit.total = top)

/-- The damage of an entry keeps within its maxima. -/
def ResultEntry.Capped (behavior : CritBehavior) : ResultEntry → Prop
  | .damage d => d.Capped behavior
  | .other d => d.Capped behavior
  | _ => True

theorem ResultEntry.IsQuiet.capped {e : ResultEntry} (h : e.IsQuiet) (behavior : CritBehavior) :
    e.Capped behavior := by
  cases e with
  | damage d => exact h.elim
  | other d => exact h.elim
  | _ => trivial

theorem exists_parse_of_maximize {text : String} {b : Bindings} {r : EvaluatedRoll}
    (h : maximize text b = .ok r) : ∃ f, Formula.parse text = .ok f := by
  obtain ⟨parsed, -⟩ := rolledFrom_of_maximize h
  exact ⟨_, parsed⟩

theorem RolledFrom.cappedBy {text : String} {b : Bindings} {r highest : EvaluatedRoll}
    (h : RolledFrom text b r) (shown : maximize r.formula ∅ = .ok highest) :
    r.CappedBy highest.total := by
  obtain ⟨f, reread⟩ := exists_parse_of_maximize shown
  exact ⟨⟨highest, shown, rfl⟩, f, reread, h.total_le shown reread⟩

/-- What a maximum reports, maximized again, is the same maximum. -/
theorem maximize_again {text : String} {r : EvaluatedRoll} (h : maximize text ∅ = .ok r) :
    maximize r.formula ∅ = .ok r := by
  obtain ⟨parsed, replaced, -⟩ := rolledFrom_of_maximize h
  have reread := Formula.parse_substituted parsed replaced Bindings.empty_avoidsLeast
  rw [maximize_eq parsed, Formula.perform_evaluate_of_ok replaced] at h
  rw [maximize_eq reread, Formula.perform_evaluate_of_ok (Formula.substitute_again _ replaced)]
  exact h

namespace RunContext

variable {c : RunContext} {σ : Type} [RandomSource σ] [DiceSource σ]

/-- The text that critical dice are rolled of. If the base dice are made up to their maximum, what
they fell short of it is added. -/
def critText (behavior : CritBehavior) (formula : String) (base : EvaluatedRoll) (maxBase : Int) :
    String :=
  if behavior = .maximizeBoth ∧ 0 < maxBase - base.total then
    Formula.compose [formula, toString (maxBase - base.total)]
  else formula

omit [DiceSource σ] in
theorem rollCrit_eq (behavior : CritBehavior) (formula : String) (base : EvaluatedRoll)
    (maxBase : Int) :
    rollCrit (σ := σ) behavior formula base maxBase =
      match behavior with
      | .none => pure none
      | .bonusDiceOnly =>
        some <$> rolling (RandomSource.evaluate (critText behavior formula base maxBase) ∅)
      | _ => some <$> maximum (critText behavior formula base maxBase) ∅ := by
  cases behavior with
  | maximizeBoth => simp only [rollCrit, critText, true_and]
  | _ => rfl

omit [DiceSource σ] in
/-- Critical dice that are maximized leave the source alone. -/
theorem maximize_of_rollCrit {formula : String} {base crit : EvaluatedRoll} {maxBase : Int}
    {s s' : σ} {behavior : CritBehavior} (maximizes : behavior.maximizes = true)
    (h : perform (rollCrit behavior formula base maxBase) s = (.ok (some crit), s')) :
    maximize (critText behavior formula base maxBase) ∅ = .ok crit ∧ s' = s := by
  rw [rollCrit_eq] at h
  have maximized (text : String)
      (h : perform (some <$> maximum text ∅) s = (.ok (some crit), s')) :
      maximize text ∅ = .ok crit ∧ s' = s := by
    obtain ⟨roll, u, found, made⟩ := perform_bind_ok_iff.1 h
    cases made
    exact perform_maximum_ok_iff.1 found
  cases behavior with
  | none => cases maximizes
  | bonusDiceOnly => cases maximizes
  | maximizeBase => exact maximized _ h
  | maximizeBoth => exact maximized _ h

theorem rolledFrom_of_rollCrit {formula : String} {base crit : EvaluatedRoll} {maxBase : Int}
    {s s' : σ} {behavior : CritBehavior}
    (h : perform (rollCrit behavior formula base maxBase) s = (.ok (some crit), s')) :
    RolledFrom (critText behavior formula base maxBase) ∅ crit := by
  cases behavior with
  | none => cases h
  | bonusDiceOnly =>
    rw [rollCrit_eq] at h
    obtain ⟨roll, u, rolled, made⟩ := perform_bind_ok_iff.1 h
    cases made
    exact DiceSource.rolledFrom (perform_rolling_ok_iff.1 rolled)
  | maximizeBase => exact rolledFrom_of_maximize (maximize_of_rollCrit rfl h).1
  | maximizeBoth => exact rolledFrom_of_maximize (maximize_of_rollCrit rfl h).1

omit [DiceSource σ] in
/-- Critical dice are rolled of a formula that is made of the base dice. -/
theorem rollCrit_of_critDice {roll : DamageRoll} {isCrit : Bool} {base crit : EvaluatedRoll}
    {maxBase : Int} {s s' : σ}
    (h : perform (c.critDice roll isCrit base maxBase) s = (.ok (some crit), s')) :
    ∃ formula, c.critFormula? roll.item base.formula = .ok (some formula) ∧
      perform (rollCrit c.critBehavior formula base maxBase) s = (.ok (some crit), s') := by
  unfold critDice at h
  split at h
  · obtain ⟨formula?, u, found, h⟩ := perform_bind_ok_iff.1 h
    rw [perform_lift] at found
    obtain ⟨written, rfl⟩ := Prod.mk.inj found
    cases formula? with
    | none => cases h
    | some formula => exact ⟨formula, mapError_eq_ok_iff.1 written, h⟩
  · cases h

theorem RolledDamage.capped {roll : DamageRoll} {p p' : Progress} {s u s' : σ} {d : DamageEntry}
    (h : c.RolledDamage roll p s u d p' s') : d.Capped c.critBehavior where
  base := by
    obtain ⟨highest, shown, same⟩ := h.maxBase
    rw [same]
    exact (DiceSource.rolledFrom h.base).cappedBy shown
  crit crit made := by
    have rolled := h.crit
    have cap := h.maxCrit
    rw [Option.mem_def.1 made] at rolled cap
    obtain ⟨formula, -, rolled⟩ := rollCrit_of_critDice rolled
    obtain ⟨highest, u, found, same⟩ := perform_bind_ok_iff.1 cap
    obtain ⟨shown, -⟩ := perform_maximum_ok_iff.1 found
    obtain ⟨top, -⟩ := Prod.mk.inj same
    refine ⟨highest.total, (Except.ok.inj top).symm,
      (rolledFrom_of_rollCrit rolled).cappedBy shown, fun maximizes => ?_⟩
    have again := maximize_again (maximize_of_rollCrit maximizes rolled).1
    exact congrArg EvaluatedRoll.total (Except.ok.inj (again.symm.trans shown))

theorem Worked.capped {step : Step} {p p' : Progress} {entry : Option ResultEntry} {s s' : σ}
    (h : c.Worked p s (c.task step) entry p' s') : ∀ e ∈ entry, e.Capped c.critBehavior := by
  generalize asked : c.task step = task at h
  rintro e made
  cases h with
  | quiet entry =>
    cases made
    exact (task_eq_quiet asked).capped _
  | @rolls kind title m b o s' rolled =>
    cases made
    cases kind <;> trivial
  | noLine => cases made
  | line rolled =>
    cases made
    exact rolled.capped
  | noOther => cases made
  | other rolled =>
    cases made
    exact rolled.capped

theorem Resolves.capped {p p' : Progress} {s s' : σ} {visits : List Visit}
    (h : c.Resolves p s visits p' s') :
    ∀ e ∈ visits.filterMap (·.entry), e.Capped c.critBehavior := by
  induction h with
  | nil p s => exact List.forall_mem_nil _
  | @cons step p q p' s u s' entry visits visited rest ih =>
    have here := ((perform_resolveStep_ok_iff c).1 visited).capped
    rintro e mem
    obtain ⟨v, visit, made⟩ := List.mem_filterMap.1 mem
    rcases List.mem_cons.1 visit with rfl | later
    · exact here e made
    · exact ih e (List.mem_filterMap.2 ⟨v, later, made⟩)

end RunContext

/-- The maxima that a run reports with its damage are the totals of the reported texts with the
highest faces. A text that rises with its dice has no total above them, whatever the dice showed,
and critical dice that are maximized come to them exactly. -/
theorem run_totals_within_maxima {σ η : Type} [RandomSource σ] [DiceSource σ] [RollHost η]
    (config : PipelineConfig) (itemId : String) (requests : List RollRequest) (params : RollParams)
    (t t' : Table σ η) (r : CompositeResult)
    (h : perform (run config itemId requests params) t = (.ok r, t')) :
    ∀ d ∈ r.damageEntries, d.Capped (params.critBehavior.getD config.critBehavior) := by
  cases perform_run_eq_ok_iff.1 h with
  | @intro p host host' source entries q outcome actor prepared resolved settled =>
    obtain ⟨declared, added, q', u, first, second, steps, extra, rfl⟩ :=
      RunContext.perform_resolvePlan_ok_iff.1 resolved
    intro d mem
    obtain ⟨e, entry, made⟩ := List.mem_filterMap.1 mem
    have capped := (first.append second).capped e entry
    cases e with
    | damage d' =>
      cases made
      exact capped
    | other d' =>
      cases made
      exact capped
    | _ => cases made

/-- Neither the base dice nor the critical ones of the brawl are above their maxima. -/
theorem brawl_totals_within_maxima :
    ∃ r t', perform (run { multiRollCount := 2 } "club" [.attack {}, .damage {}] {}) brawl =
        (.ok r, t') ∧
      r.damageEntries = [clubbed] ∧ clubbed.Capped .bonusDiceOnly ∧
      clubbed.base.total ≤ clubbed.maxBase := by
  obtain ⟨r, t', done, entries, -⟩ := brawl_completed
  have damage : r.damageEntries = [clubbed] := by
    unfold CompositeResult.damageEntries
    rw [entries]
    rfl
  have capped : clubbed.Capped .bonusDiceOnly := by
    refine run_totals_within_maxima { multiRollCount := 2 } "club" [.attack {}, .damage {}] {}
      brawl t' r done clubbed ?_
    rw [damage]
    exact List.mem_singleton_self _
  obtain ⟨f, parsed, bound⟩ := capped.base.bound
  cases parsed.symm.trans parse_d4
  exact ⟨r, t', done, damage, capped, bound (by decide +kernel)⟩

/-! ## Dice that are subtracted -/

/-- A weapon that does the more damage the less its die shows. -/
def flail : Item where
  id := "flail"
  name := "Flail"
  kind := .weapon
  damage := ⟨[⟨"10 - 1d6", none⟩], none⟩

def scuffle : Table ScriptedSource StaticHost where
  actor := { id := "ogre", name := "Ogre", items := [flail] }
  source := .ofFaces [1, 1]
  host := {}

/-- The damage of the flail, which is always critical. -/
def flailing : Preparation where
  item := flail
  cast := none
  steps := [.damage ⟨0, false, .always, none, .primary⟩]

def flailer : RunContext := flailing.context {} {} scuffle.actor

def lashed (face : Nat) : EvaluatedRoll := ⟨"10 - 1d6", 10 - face, [⟨6, [⟨face, true⟩]⟩]⟩

def flailed : DamageEntry :=
  flailer.damageEntry
    (flailer.lineRoll ⟨0, false, .always, none, .primary⟩ flail ⟨"10 - 1d6", none⟩ "10 - 1d6")
    (lashed 1) 4 (some (lashed 1)) (some 4)

def lashTerms : Formula := [.number 10, .operator .subtract, .dice ⟨1, 6, []⟩]

theorem parse_lash : Formula.parse "10 - 1d6" = .ok lashTerms :=
  Formula.parse_render_of_sound (f := lashTerms) rfl (by decide)

theorem maximize_lash : maximize "10 - 1d6" ∅ = .ok (lashed 6) := by
  rw [maximize_eq parse_lash]
  exact eq_ok_of_toOption (by decide +kernel)

theorem flail_visited :
    perform (flailer.resolveStep (.damage ⟨0, false, .always, none, .primary⟩) {}) scuffle.source =
      (.ok (some (.damage flailed), ({} : Progress).markDamage.recordRolls flailed.rolls),
        ⟨⟨[]⟩, 2⟩) := by
  let line : DamageStep := ⟨0, false, .always, none, .primary⟩
  have found : flailer.task (.damage line) =
      .line (.ok (some (flailer.lineRoll line flail ⟨"10 - 1d6", none⟩ "10 - 1d6"))) := by
    refine congrArg Task.line (RunContext.damageRoll?_eq_some_iff.2
      ⟨flail, ⟨"10 - 1d6", none⟩, "10 - 1d6", rfl, rfl, ?_, ?_, rfl⟩)
    · decide
    · exact eq_ok_of_toOption (by decide)
  refine (RunContext.perform_resolveStep_ok_iff _).2 ?_
  rw [found]
  refine .line (u := ⟨⟨[1]⟩, 1⟩) ⟨?_, ⟨lashed 6, maximize_lash, rfl⟩, ?_, ?_, rfl, rfl⟩
  · exact perform_evaluate_scripted_ok parse_lash (by decide +kernel) (by decide +kernel)
  · have written : flailer.critFormula? flail "10 - 1d6" = .ok (some "10 - 1d6") :=
      (RunContext.critFormula?_eq parse_lash).trans (congrArg Except.ok (by decide))
    exact RunContext.perform_critDice_of_rolled (by decide) written (by decide)
      (perform_evaluate_scripted_ok parse_lash (by decide +kernel) (by decide +kernel))
  · exact perform_bind_ok_iff.2 ⟨lashed 6, _, perform_maximum_ok_iff.2 ⟨maximize_lash, rfl⟩, rfl⟩

/-- A die that is subtracted shows one, twice: both totals are nine, and both maxima are four. -/
theorem scuffle_above_maxima :
    ∃ r t', perform (run {} "flail" [.damage { crit := .always }] {}) scuffle = (.ok r, t') ∧
      r.damageEntries = [flailed] ∧
      flailed.base.total = 9 ∧ flailed.maxBase = 4 ∧
      flailed.crit.map (·.total) = some 9 ∧ flailed.maxCrit = some 4 := by
  have prepared : Prepared "flail" [.damage { crit := .always }] {} scuffle.actor scuffle.host
      flailing scuffle.host := ⟨rfl, rfl, rfl, rfl⟩
  have resolves : flailer.Resolves {} scuffle.source
      [⟨_, {}, some (.damage flailed), _⟩] _ ⟨⟨[]⟩, 2⟩ := .cons flail_visited (.nil _ _)
  have resolved := RunContext.perform_resolvePlan_ok_iff.2
    ⟨_, [], _, _, resolves, .nil _ _, rfl, rfl, rfl⟩
  have done := perform_run_eq_ok_iff.2 (.intro prepared resolved rfl)
  exact ⟨_, _, done, rfl, rfl, rfl, rfl, rfl⟩

end Tabletop
