import Mathlib
import Tabletop.Proofs.Run.Phases
import Tabletop.Proofs.Run.Trace
/-!
# How a critical hit flows through a run

Attacks and checks can make a run critical, nothing takes that back, and damage looks at it when it
is rolled. `Visit.CritRules` is what one visit keeps to; a run keeps to it at every visit, with the
flag that the earlier visits have raised.
-/

namespace Tabletop

open Playing

/-- Whether an entry makes the run critical. -/
def ResultEntry.flipsCrit : ResultEntry → Bool
  | .attack roll => roll.outcome.flipsCrit
  | .check roll => roll.outcome.flipsCrit
  | _ => false

/-- When the damage of a step has critical dice. -/
def Step.critOverride : Step → CritOverride
  | .damage step => step.crit
  | .request (.critExtra _) => .never
  | .request _ => .auto

/-- Whether a visit makes the run critical. -/
def Visit.flipsCrit (v : Visit) : Bool := v.entry.any ResultEntry.flipsCrit

/-- Whether the text of a roll has dice left once its constants are taken away. -/
def EvaluatedRoll.HasCritDice (r : EvaluatedRoll) : Prop :=
  ∃ f, Formula.parse r.formula = .ok f ∧ Formula.hasDice (Formula.diceOnly f) = true

/-- What the outcome of a multiple roll says about critical hits: it is up to the rolls that were
not dropped whether it is critical, and up to the request whether that counts. -/
structure MultiRoll.Judged (m : MultiRoll) (o : MultiRollOutcome) : Prop where
  isCrit : ∃ f, Formula.parse m.composed = .ok f ∧
    o.isCrit = (CritClassification.ofDice (o.chosen.flatMap (·.roll.dice)) m.critThreshold
      (filterOf f)).isCrit
  triggersCrit : o.triggersCrit = m.triggersCrit

theorem judged_of_resolve {σ : Type} [RandomSource σ] {m : MultiRoll} {b : Bindings}
    {s s' : σ} {o : MultiRollOutcome} (h : perform (m.resolve b) s = (.ok o, s')) : m.Judged o := by
  obtain ⟨f, rolls, parsed, -, rfl⟩ := perform_resolve_ok_iff.1 h
  exact ⟨⟨f, parsed, rfl⟩, rfl⟩

namespace RunContext

variable {c : RunContext}

/-! ## Critical dice -/

theorem wantsCrit_iff {isCrit : Bool} {override : CritOverride} :
    c.wantsCrit isCrit override = true ↔
      c.critBehavior ≠ .none ∧ (override = .always ∨ override = .auto ∧ isCrit = true) := by
  unfold wantsCrit
  cases override with
  | auto => simp
  | always => simp
  | never => simp

/-- The dice of a critical hit: those of the base dice, with one more in each term for savage
attacks. -/
def critTerms (c : RunContext) (item : Item) (f : Formula) : Formula :=
  if item.isWeaponAttack && c.actor.traits.savageAttacks then
    Formula.alter 1 1 false (Formula.diceOnly f)
  else Formula.diceOnly f

theorem critFormula?_eq {item : Item} {text : String} {f : Formula}
    (parsed : Formula.parse text = .ok f) :
    c.critFormula? item text =
      .ok (if Formula.hasDice (Formula.diceOnly f) then
        let dice := Formula.render (c.critTerms item f)
        some (item.crit.bonusDice.elim dice fun bonus => Formula.compose [dice, bonus])
      else none) := by
  unfold critFormula?
  rw [parsed]
  cases dice : Formula.hasDice (Formula.diceOnly f) with
  | false =>
    refine (if_pos ?_).trans rfl
    rw [dice]
    rfl
  | true =>
    refine (if_neg ?_).trans rfl
    rw [dice]
    exact Bool.false_ne_true

theorem critFormula?_isSome {item : Item} {text : String} {formula : Option String}
    (h : c.critFormula? item text = .ok formula) :
    formula.isSome = true ↔
      ∃ f, Formula.parse text = .ok f ∧ Formula.hasDice (Formula.diceOnly f) = true := by
  obtain ⟨f, parsed, -⟩ := bind_eq_ok_iff.1 h
  rw [parsed]
  rw [critFormula?_eq parsed] at h
  cases h
  split
  · next dice => simp [dice]
  · next noDice => simp [noDice]

variable {σ : Type} [RandomSource σ]

theorem rollCrit_isSome {behavior : CritBehavior} (critical : behavior ≠ .none) {formula : String}
    {base : EvaluatedRoll} {maxBase : Int} {s s' : σ} {crit : Option EvaluatedRoll}
    (h : perform (rollCrit behavior formula base maxBase) s = (.ok crit, s')) :
    crit.isSome = true := by
  have made (x : Resolving σ EvaluatedRoll) (h : perform (some <$> x) s = (.ok crit, s')) :
      crit.isSome = true := by
    rw [perform_map] at h
    rcases rolled : perform x s with ⟨e | r, u⟩
    · rw [rolled] at h
      cases h
    · rw [rolled] at h
      cases h
      rfl
  cases behavior with
  | none => exact absurd rfl critical
  | bonusDiceOnly => exact made _ h
  | maximizeBase => exact made _ h
  | maximizeBoth => exact made _ h

/-- Critical dice that are wanted and that the source rolls. -/
theorem perform_critDice_of_rolled {roll : DamageRoll} {isCrit : Bool} {base crit : EvaluatedRoll}
    {maxBase : Int} {formula : String} {s s' : σ}
    (wants : c.wantsCrit isCrit roll.crit = true)
    (written : c.critFormula? roll.item base.formula = .ok (some formula))
    (behavior : c.critBehavior = .bonusDiceOnly)
    (rolled : perform (RandomSource.evaluate formula ∅) s = (.ok crit, s')) :
    perform (c.critDice roll isCrit base maxBase) s = (.ok (some crit), s') := by
  rw [critDice, if_pos wants]
  refine perform_bind_ok_iff.2 ⟨some formula, s, ?_, ?_⟩
  · rw [perform_lift, written]
    rfl
  · dsimp only
    rw [behavior]
    change perform (some <$> rolling (RandomSource.evaluate formula ∅)) s = _
    rw [perform_map, perform_rolling, rolled]
    rfl

/-- A roll has critical dice where they are wanted, unless the formula has no dice. -/
theorem RolledDamage.crit_iff {roll : DamageRoll} {p p' : Progress} {s u s' : σ} {d : DamageEntry}
    (h : c.RolledDamage roll p s u d p' s') :
    d.crit.isSome = true ↔
      c.critBehavior ≠ .none ∧ (roll.crit = .always ∨ roll.crit = .auto ∧ p.isCrit = true) ∧
        d.base.HasCritDice := by
  have rolled := h.crit
  unfold critDice at rolled
  rw [← and_assoc, ← wantsCrit_iff]
  by_cases wants : c.wantsCrit p.isCrit roll.crit = true
  · rw [if_pos wants] at rolled
    obtain ⟨formula, v, found, rolled⟩ := perform_bind_ok_iff.1 rolled
    rw [perform_lift] at found
    obtain ⟨found, rfl⟩ := Prod.mk.inj found
    cases written : c.critFormula? roll.item d.base.formula with
    | error f =>
      rw [written] at found
      cases found
    | ok formula' =>
      rw [written] at found
      cases found
      unfold EvaluatedRoll.HasCritDice
      rw [← critFormula?_isSome written]
      cases formula with
      | none =>
        obtain ⟨none_rolled, -⟩ := Prod.mk.inj rolled
        rw [← Except.ok.inj none_rolled]
        simp
      | some formula =>
        have critical := (wantsCrit_iff.1 wants).1
        simp [rollCrit_isSome critical rolled, wants]
  · rw [if_neg wants] at rolled
    obtain ⟨none_rolled, -⟩ := Prod.mk.inj rolled
    rw [← Except.ok.inj none_rolled]
    simp [wants]

/-! ## The override of a step -/

omit [RandomSource σ] in
theorem damageRoll?_crit {step : DamageStep} {roll : DamageRoll}
    (h : c.damageRoll? step = .ok (some roll)) : roll.crit = step.crit := by
  obtain ⟨item, part, formula, -, -, -, -, rfl⟩ := damageRoll?_eq_some_iff.1 h
  rfl

omit [RandomSource σ] in
theorem task_line_crit {step : Step} {roll : DamageRoll}
    (h : c.task step = .line (.ok (some roll))) : roll.crit = step.critOverride := by
  obtain ⟨line, found, rfl | ⟨index, i, rfl, rfl⟩⟩ := task_eq_line h
  · exact damageRoll?_crit found
  · exact damageRoll?_crit found

omit [RandomSource σ] in
theorem task_other_crit {step : Step} {roll : DamageRoll} (h : c.task step = .other (some roll)) :
    roll.crit = step.critOverride := by
  obtain ⟨rfl, found⟩ := task_eq_other h
  obtain ⟨formula, -, made⟩ := Option.bind_eq_some_iff.1 found
  cases made
  rfl

end RunContext

/-! ## Visits -/

/-- Damage that a visit rolled. -/
def Visit.Rolled (v : Visit) (d : DamageEntry) : Prop :=
  v.entry = some (.damage d) ∨ v.entry = some (.other d)

/-- What a visit keeps to; `flipped` says whether an earlier visit has made the run critical. -/
structure Visit.CritRules (v : Visit) (c : RunContext) (flipped : Bool) : Prop where
  before : v.before.isCrit = flipped
  after : v.after.isCrit = (flipped || v.flipsCrit)
  attack : ∀ roll, v.entry = some (.attack roll) →
    ∃ args, v.step = .request (.attack args) ∧ (c.attackRoll args).1.Judged roll.outcome
  check : ∀ roll, v.entry = some (.check roll) →
    ∃ args, v.step = .request (.check args) ∧ (c.checkRoll args).1.Judged roll.outcome
  damage : ∀ d, v.Rolled d → (d.crit.isSome = true ↔
    c.critBehavior ≠ .none ∧
      (v.step.critOverride = .always ∨ v.step.critOverride = .auto ∧ flipped = true) ∧
      d.base.HasCritDice)
  never : v.step.critOverride = .never → ∀ d, v.Rolled d → d.crit = none

theorem Visit.Rolled.unique {v : Visit} {d d' : DamageEntry} (h : v.Rolled d) (h' : v.Rolled d') :
    d' = d := by
  rcases h with h | h
  · rcases h' with h' | h'
    · cases h.symm.trans h'
      rfl
    · cases h.symm.trans h'
  · rcases h' with h' | h'
    · cases h.symm.trans h'
    · cases h.symm.trans h'
      rfl

theorem Visit.not_rolled {v : Visit} {kind : RollKind} {roll : RollEntry}
    (h : v.entry = some (kind.entry roll)) (d : DamageEntry) : ¬v.Rolled d := by
  rintro (h' | h')
  · have same := Option.some.inj (h.symm.trans h')
    cases kind <;> cases same
  · have same := Option.some.inj (h.symm.trans h')
    cases kind <;> cases same

namespace Visit.CritRules

variable {v : Visit} {c : RunContext}

/-- A visit without dice has no part in critical hits. -/
theorem of_quiet (same : v.after.isCrit = v.before.isCrit)
    (quiet : ∀ e, v.entry = some e → e.IsQuiet) : v.CritRules c v.before.isCrit := by
  have unrolled (d : DamageEntry) : ¬v.Rolled d := by
    rintro (h | h)
    · exact quiet _ h
    · exact quiet _ h
  have silent : v.flipsCrit = false := by
    unfold flipsCrit
    cases made : v.entry with
    | none => rfl
    | some e =>
      have quiet := quiet e made
      cases e with
      | attack roll => exact quiet.elim
      | check roll => exact quiet.elim
      | _ => rfl
  refine ⟨rfl, ?_, ?_, ?_, fun d h => absurd h (unrolled d), fun _ d h => absurd h (unrolled d)⟩
  · rw [silent, Bool.or_false, same]
  · intro roll h
    exact (quiet _ h).elim
  · intro roll h
    exact (quiet _ h).elim

/-- A visit that rolled damage only reads whether the run is critical. -/
theorem of_damage {d : DamageEntry} (rolled : v.Rolled d)
    (same : v.after.isCrit = v.before.isCrit)
    (crit : d.crit.isSome = true ↔ c.critBehavior ≠ .none ∧
      (v.step.critOverride = .always ∨ v.step.critOverride = .auto ∧ v.before.isCrit = true) ∧
      d.base.HasCritDice) : v.CritRules c v.before.isCrit := by
  refine ⟨rfl, ?_, ?_, ?_, ?_, ?_⟩
  · have silent : v.flipsCrit = false := by
      rcases rolled with h | h
      · rw [flipsCrit, h]
        rfl
      · rw [flipsCrit, h]
        rfl
    rw [silent, Bool.or_false, same]
  · intro roll h
    rcases rolled with h' | h'
    · cases h.symm.trans h'
    · cases h.symm.trans h'
  · intro roll h
    rcases rolled with h' | h'
    · cases h.symm.trans h'
    · cases h.symm.trans h'
  · intro d' h
    rw [rolled.unique h]
    exact crit
  · intro never d' h
    rw [rolled.unique h]
    rw [never] at crit
    cases found : d.crit with
    | none => rfl
    | some roll =>
      rw [found] at crit
      obtain ⟨-, wanted | ⟨wanted, -⟩, -⟩ := crit.1 rfl
      · cases wanted
      · cases wanted

end Visit.CritRules

namespace RunContext

variable {c : RunContext} {σ : Type} [RandomSource σ]

theorem Worked.critRules {step : Step} {p p' : Progress} {entry : Option ResultEntry} {s s' : σ}
    (h : c.Worked p s (c.task step) entry p' s') :
    Visit.CritRules ⟨step, p, entry, p'⟩ c p.isCrit := by
  generalize asked : c.task step = task at h
  cases h with
  | quiet entry =>
    refine .of_quiet rfl fun e made => ?_
    cases made
    exact task_eq_quiet asked
  | @rolls kind title m b o s' rolled =>
    have judged := judged_of_resolve rolled
    have made := task_eq_rolls asked
    have unrolled (d : DamageEntry) := Visit.not_rolled
      (v := ⟨step, p, some (kind.entry ⟨title, o⟩), p.recordOutcome o⟩) rfl d
    refine ⟨rfl, ?_, ?_, ?_, fun d h => absurd h (unrolled d), fun _ d h => absurd h (unrolled d)⟩
    · cases kind with
      | attack => rfl
      | check => rfl
      | custom =>
        -- a custom roll is recorded like the others, and only its arguments keep it from flipping
        obtain ⟨args, rfl, rfl⟩ := made
        have silent : o.flipsCrit = false := by
          rw [MultiRollOutcome.flipsCrit, judged.triggersCrit]
          rfl
        change (p.isCrit || o.flipsCrit) = (p.isCrit || false)
        rw [silent]
    · intro roll h
      cases kind with
      | attack =>
        cases h
        obtain ⟨args, rfl, rfl⟩ := made
        exact ⟨args, rfl, judged⟩
      | check => cases h
      | custom => cases h
    · intro roll h
      cases kind with
      | attack => cases h
      | check =>
        cases h
        obtain ⟨args, rfl, rfl⟩ := made
        exact ⟨args, rfl, judged⟩
      | custom => cases h
  | noLine =>
    refine .of_quiet rfl fun e made => ?_
    cases made
  | line rolled =>
    refine .of_damage (Or.inl rfl) (by rw [rolled.after]; rfl) ?_
    rw [← task_line_crit asked]
    exact rolled.crit_iff
  | noOther =>
    refine .of_quiet rfl fun e made => ?_
    cases made
  | other rolled =>
    refine .of_damage (Or.inr rfl) (by rw [rolled.after]; rfl) ?_
    rw [← task_other_crit asked]
    exact rolled.crit_iff

theorem critRules_of_visit {v : Visit} {s s' : σ}
    (h : perform (c.resolveStep v.step v.before) s = (.ok (v.entry, v.after), s')) :
    v.CritRules c v.before.isCrit :=
  Worked.critRules ((perform_resolveStep_ok_iff c).1 h)

/-- A run is critical at the end of a trace if it was before, or became so at some visit. -/
theorem Resolves.isCrit_eq {p p' : Progress} {s s' : σ} {visits : List Visit}
    (h : c.Resolves p s visits p' s') : p'.isCrit = (p.isCrit || visits.any (·.flipsCrit)) := by
  -- each visit adds its own flag to that of the visits before it
  induction h with
  | nil p s => simp
  | cons visited rest ih =>
    have rules := critRules_of_visit (v := ⟨_, _, _, _⟩) visited
    rw [ih, rules.after, List.any_cons, Bool.or_assoc]

/-- The rules hold at every visit of a trace. -/
theorem Resolves.critRules {p p' : Progress} {s s' : σ} {v : Visit} {earlier later : List Visit}
    (h : c.Resolves p s (earlier ++ v :: later) p' s') :
    v.CritRules c (p.isCrit || earlier.any (·.flipsCrit)) := by
  obtain ⟨u, u', first, visited⟩ := h.before_eq
  rw [← first.isCrit_eq]
  exact critRules_of_visit visited

end RunContext

/-- Some visit made the run critical exactly if one of the entries did. -/
theorem any_flipsCrit (visits : List Visit) :
    visits.any (·.flipsCrit) = true ↔
      ∃ e ∈ visits.filterMap (·.entry), e.flipsCrit = true := by
  simp only [List.any_eq_true, Visit.flipsCrit, List.mem_filterMap, Option.any_eq_true]
  constructor
  · rintro ⟨v, mem, e, entry, flips⟩
    exact ⟨e, ⟨v, mem, entry⟩, flips⟩
  · rintro ⟨e, ⟨v, mem, entry⟩, flips⟩
    exact ⟨v, mem, e, entry, flips⟩

/-- How a critical hit flows through a run that succeeds: the visits are the steps of the plan, and
possibly the extra damage behind them; the run is critical exactly if some attack or check made it
so, and each visit goes by what the earlier ones have made of the run. -/
theorem run_crit_flow {σ η : Type} [RandomSource σ] [RollHost η] (config : PipelineConfig)
    (itemId : String) (requests : List RollRequest) (params : RollParams) (t t' : Table σ η)
    (r : CompositeResult) (h : perform (run config itemId requests params) t = (.ok r, t')) :
    ∃ p host visits q,
      Prepared itemId requests params t.actor t.host p host ∧
      (p.context config params t.actor).Resolves {} t.source visits q t'.source ∧
      (visits.map (·.step) = p.steps ∨
        visits.map (·.step) = p.steps ++ [.request (.critExtra none)]) ∧
      r.entries = visits.filterMap (·.entry) ∧
      (r.isCrit = true ↔ ∃ e ∈ r.entries, e.flipsCrit = true) ∧
      ∀ earlier v later, visits = earlier ++ v :: later →
        v.CritRules (p.context config params t.actor) (earlier.any (·.flipsCrit)) := by
  cases perform_run_eq_ok_iff.1 h with
  | @intro p host host' source entries q outcome actor prepared resolved settled =>
    obtain ⟨declared, added, q', u, first, second, steps, extra, rfl⟩ :=
      RunContext.perform_resolvePlan_ok_iff.1 resolved
    have resolves := first.append second
    refine ⟨p, host, declared ++ added, q, prepared, resolves, ?_, rfl, ?_, ?_⟩
    · rw [List.map_append, steps, extra]
      unfold RunContext.addedSteps
      split
      · exact Or.inr rfl
      · exact Or.inl (List.append_nil _)
    · have flag : q.isCrit = (declared ++ added).any (·.flipsCrit) := resolves.isCrit_eq
      change q.isCrit = true ↔ ∃ e ∈ (declared ++ added).filterMap (·.entry), e.flipsCrit = true
      rw [← any_flipsCrit, flag]
    · intro earlier v later split_at
      rw [split_at] at resolves
      exact resolves.critRules

/-! ## A brawl -/

/-- A weapon with one damage line. -/
def club : Item where
  id := "club"
  name := "Club"
  kind := .weapon
  damage := ⟨[⟨"1d4", none⟩], none⟩

/-- A table where both dice of an attack show twenty. -/
def brawl : Table ScriptedSource StaticHost where
  actor := { id := "ogre", name := "Ogre", items := [club] }
  source := .ofFaces [20, 20, 3, 1]
  host := {}

/-- The plan of an attack with the club and its damage. -/
def swing : Preparation where
  item := club
  cast := none
  steps := [.request (.attack {}), .damage ⟨0, false, .auto, none, .primary⟩]

def brawler : RunContext := swing.context { multiRollCount := 2 } {} brawl.actor

def d20 : EvaluatedRoll := ⟨"1d20", 20, [⟨20, [⟨20, true⟩]⟩]⟩

def d4 (face : Nat) : EvaluatedRoll := ⟨"1d4", face, [⟨4, [⟨face, true⟩]⟩]⟩

def swung : MultiRollOutcome :=
  (brawler.attackRoll {}).1.outcomeOf (.faces [20]) [d20, d20]

def clubbed : DamageEntry :=
  brawler.damageEntry (brawler.lineRoll ⟨0, false, .auto, none, .primary⟩ club ⟨"1d4", none⟩ "1d4")
    (d4 3) 4 (some (d4 1)) (some 4)

def swingVisit : Visit where
  step := .request (.attack {})
  before := {}
  entry := some (.attack ⟨some "Attack", swung⟩)
  after := ({} : Progress).recordOutcome swung

def clubVisit : Visit where
  step := .damage ⟨0, false, .auto, none, .primary⟩
  before := swingVisit.after
  entry := some (.damage clubbed)
  after := swingVisit.after.markDamage.recordRolls clubbed.rolls

theorem parse_d20 : Formula.parse "1d20" = .ok [.dice ⟨1, 20, []⟩] := by cbv

theorem parse_d4 : Formula.parse "1d4" = .ok [.dice ⟨1, 4, []⟩] := by cbv

theorem maximize_d4 : maximize "1d4" ∅ = .ok (d4 4) := by
  rw [maximize_eq parse_d4]
  exact eq_ok_of_toOption (by decide +kernel)

theorem swing_visited :
    perform (brawler.resolveStep swingVisit.step swingVisit.before) brawl.source =
      (.ok (swingVisit.entry, swingVisit.after), ⟨⟨[3, 1]⟩, 2⟩) := by
  refine (RunContext.perform_resolveStep_ok_iff _).2 (.rolls ?_)
  have composed : (brawler.attackRoll {}).1.composed = "1d20" := by decide
  have count : (brawler.attackRoll {}).1.rollCount = 2 := by decide
  refine perform_resolve_ok_iff.2 ⟨[.dice ⟨1, 20, []⟩], [d20, d20], ?_, ?_, rfl⟩
  · rw [composed]
    exact parse_d20
  · rw [composed, count]
    refine perform_evaluateTimes_succ_ok_iff.2 ⟨d20, ⟨⟨[20, 3, 1]⟩, 1⟩, [d20], ?_, ?_, rfl⟩
    · exact perform_evaluate_scripted_ok parse_d20 (by decide +kernel) (by decide +kernel)
    · refine perform_evaluateTimes_succ_ok_iff.2 ⟨d20, ⟨⟨[3, 1]⟩, 2⟩, [], ?_, rfl, rfl⟩
      exact perform_evaluate_scripted_ok parse_d20 (by decide +kernel) (by decide +kernel)

theorem club_visited :
    perform (brawler.resolveStep clubVisit.step clubVisit.before)
        (⟨⟨[3, 1]⟩, 2⟩ : ScriptedSource) =
      (.ok (clubVisit.entry, clubVisit.after), ⟨⟨[]⟩, 4⟩) := by
  let line : DamageStep := ⟨0, false, .auto, none, .primary⟩
  have found : brawler.task clubVisit.step =
      .line (.ok (some (brawler.lineRoll line club ⟨"1d4", none⟩ "1d4"))) := by
    refine congrArg Task.line (RunContext.damageRoll?_eq_some_iff.2
      ⟨club, ⟨"1d4", none⟩, "1d4", rfl, rfl, ?_, ?_, rfl⟩)
    · decide
    · exact eq_ok_of_toOption (by decide)
  refine (RunContext.perform_resolveStep_ok_iff _).2 ?_
  rw [found]
  refine .line (u := ⟨⟨[1]⟩, 3⟩) ⟨?_, ⟨d4 4, maximize_d4, rfl⟩, ?_, ?_, rfl, rfl⟩
  · exact perform_evaluate_scripted_ok parse_d4 (by decide +kernel) (by decide +kernel)
  · have written : brawler.critFormula? club "1d4" = .ok (some "1d4") :=
      (RunContext.critFormula?_eq parse_d4).trans (congrArg Except.ok (by decide))
    exact RunContext.perform_critDice_of_rolled (by decide) written (by decide)
      (perform_evaluate_scripted_ok parse_d4 (by decide +kernel) (by decide +kernel))
  · exact perform_bind_ok_iff.2 ⟨d4 4, _, perform_maximum_ok_iff.2 ⟨maximize_d4, rfl⟩, rfl⟩

/-- The attack makes the run critical, and so the damage behind it has critical dice. -/
theorem brawl_crit_flow :
    ∃ r t', perform (run { multiRollCount := 2 } "club" [.attack {}, .damage {}] {}) brawl =
        (.ok r, t') ∧
      r.entries.map (·.flipsCrit) = [true, false] ∧
      r.damageEntries.map (·.crit) = [some (d4 1)] ∧
      ∃ p host visits q,
        Prepared "club" [.attack {}, .damage {}] {} brawl.actor brawl.host p host ∧
        (p.context { multiRollCount := 2 } {} brawl.actor).Resolves {} brawl.source visits q
          t'.source ∧
        (visits.map (·.step) = p.steps ∨
          visits.map (·.step) = p.steps ++ [.request (.critExtra none)]) ∧
        r.entries = visits.filterMap (·.entry) ∧
        (r.isCrit = true ↔ ∃ e ∈ r.entries, e.flipsCrit = true) ∧
        ∀ earlier v later, visits = earlier ++ v :: later →
          v.CritRules (p.context { multiRollCount := 2 } {} brawl.actor)
            (earlier.any (·.flipsCrit)) := by
  have prepared : Prepared "club" [.attack {}, .damage {}] {} brawl.actor brawl.host swing
      brawl.host := ⟨rfl, rfl, rfl, rfl⟩
  have resolves : brawler.Resolves {} brawl.source [swingVisit, clubVisit] clubVisit.after
      ⟨⟨[]⟩, 4⟩ := .cons swing_visited (.cons club_visited (.nil _ _))
  have resolved := RunContext.perform_resolvePlan_ok_iff.2
    ⟨_, [], _, _, resolves, .nil _ _, rfl, rfl, rfl⟩
  have done := perform_run_eq_ok_iff.2 (.intro prepared resolved rfl)
  exact ⟨_, _, done, by decide +kernel, rfl, run_crit_flow _ _ _ _ _ _ _ done⟩

end Tabletop
