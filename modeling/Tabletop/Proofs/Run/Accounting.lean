import Mathlib
import Tabletop.Proofs.Dice.Draws
import Tabletop.Proofs.Dice.Selection
import Tabletop.Proofs.Run.CritFlow
/-!
# The dice of a run

All rolls of a run are in its pool, in the order in which they were made, and each of them is in one
entry of the result. All of them but the maximized critical dice were asked of the source, and
nothing else was.
-/

namespace Tabletop

open Playing

/-- Whether critical dice show their maximum, so that no source is asked for them. -/
def CritBehavior.maximizes : CritBehavior → Bool
  | maximizeBase => true
  | maximizeBoth => true
  | _ => false

/-- The rolls of a damage entry that the source was asked for. -/
def DamageEntry.evaluated (behavior : CritBehavior) (d : DamageEntry) : List EvaluatedRoll :=
  d.base :: if behavior.maximizes then [] else d.crit.toList

/-- The rolls of a damage entry that show the maximum. -/
def DamageEntry.maximized (behavior : CritBehavior) (d : DamageEntry) : List EvaluatedRoll :=
  if behavior.maximizes then d.crit.toList else []

namespace ResultEntry

/-- The rolls of an entry: those of a roll kept or ignored, and the base dice of damage before its
critical ones. -/
def rolls : ResultEntry → List EvaluatedRoll
  | .attack roll => roll.outcome.rolls
  | .check roll => roll.outcome.rolls
  | .custom roll => roll.outcome.rolls
  | .damage d => d.rolls
  | .other d => d.rolls
  | _ => []

def evaluated (behavior : CritBehavior) : ResultEntry → List EvaluatedRoll
  | .damage d => d.evaluated behavior
  | .other d => d.evaluated behavior
  | e => e.rolls

def maximized (behavior : CritBehavior) : ResultEntry → List EvaluatedRoll
  | .damage d => d.maximized behavior
  | .other d => d.maximized behavior
  | _ => []

theorem rolls_eq (behavior : CritBehavior) (e : ResultEntry) :
    e.rolls = e.evaluated behavior ++ e.maximized behavior := by
  have damage (d : DamageEntry) : d.rolls = d.evaluated behavior ++ d.maximized behavior := by
    unfold DamageEntry.rolls DamageEntry.evaluated DamageEntry.maximized
    cases behavior.maximizes with
    | false => simp
    | true => simp
  cases e with
  | damage d => exact damage d
  | other d => exact damage d
  | _ => exact (List.append_nil _).symm

theorem IsQuiet.rolls {e : ResultEntry} (h : e.IsQuiet) : e.rolls = [] := by
  cases e with
  | saveDc _ => rfl
  | text _ => rfl
  | flavor _ => rfl
  | _ => exact h.elim

theorem IsQuiet.evaluated {e : ResultEntry} (h : e.IsQuiet) (behavior : CritBehavior) :
    e.evaluated behavior = [] := by
  have whole := rolls_eq behavior e
  rw [h.rolls] at whole
  exact (List.append_eq_nil_iff.1 whole.symm).1

end ResultEntry

/-- Every roll of some entries is evaluated or maximized. -/
theorem length_rolls (behavior : CritBehavior) (entries : List ResultEntry) :
    (entries.flatMap (·.rolls)).length =
      (entries.flatMap (·.evaluated behavior)).length +
        (entries.flatMap (·.maximized behavior)).length := by
  induction entries with
  | nil => rfl
  | cons e entries ih =>
    simp only [List.flatMap_cons, List.length_append, ih, ResultEntry.rolls_eq behavior e]
    omega

/-! ## Evaluations in a row -/

section

variable {σ : Type} [RandomSource σ]

/-- A source is asked for evaluations, one after the other, and these are their rolls. -/
inductive Evaluations : σ → List EvaluatedRoll → σ → Prop
  | nil (s : σ) : Evaluations s [] s
  | cons {text : String} {b : Bindings} {roll : EvaluatedRoll} {rolls : List EvaluatedRoll}
      {s u s' : σ} (evaluated : perform (RandomSource.evaluate text b) s = (.ok roll, u))
      (rest : Evaluations u rolls s') : Evaluations s (roll :: rolls) s'

theorem Evaluations.append {s u s' : σ} {first second : List EvaluatedRoll}
    (h : Evaluations s first u) (h' : Evaluations u second s') :
    Evaluations s (first ++ second) s' := by
  induction h with
  | nil s => exact h'
  | cons evaluated rest ih => exact .cons evaluated (ih h')

theorem evaluations_of_evaluateTimes {text : String} {b : Bindings} {n : Nat} {s s' : σ}
    {rolls : List EvaluatedRoll} (h : perform (evaluateTimes text b n) s = (.ok rolls, s')) :
    Evaluations s rolls s' := by
  induction n generalizing s rolls with
  | zero =>
    cases h
    exact .nil _
  | succ n ih =>
    obtain ⟨roll, u, rest, rolled, others, rfl⟩ := perform_evaluateTimes_succ_ok_iff.1 h
    exact .cons rolled (ih others)

/-- A multiple roll keeps all of its evaluations, the ignored ones too. -/
theorem evaluations_of_resolve {m : MultiRoll} {b : Bindings} {s s' : σ} {o : MultiRollOutcome}
    (h : perform (m.resolve b) s = (.ok o, s')) : Evaluations s o.rolls s' := by
  obtain ⟨f, rolls, -, rolled, rfl⟩ := perform_resolve_ok_iff.1 h
  rw [m.rolls_outcomeOf (MultiRoll.filterOf f) rolls]
  exact evaluations_of_evaluateTimes rolled

/-- Evaluations of a script count one by one, and take a face for each die. -/
theorem Evaluations.scripted {s s' : ScriptedSource} {rolls : List EvaluatedRoll}
    (h : Evaluations s rolls s') :
    s'.evaluations = s.evaluations + rolls.length ∧
      s'.script.faces = s.script.faces.drop (sumOf (rolls.map (·.dieCount))) := by
  induction h with
  | nil s => exact ⟨rfl, rfl⟩
  | @cons text b roll rolls s u s' evaluated rest ih =>
    obtain ⟨counted, queue⟩ := scripted_of_evaluate evaluated
    rw [ih.1, ih.2, counted, queue, List.drop_drop, List.length_cons, List.map_cons, sumOf]
    exact ⟨by omega, rfl⟩

end

/-! ## Steps -/

namespace RunContext

variable {c : RunContext} {σ : Type} [RandomSource σ]

theorem evaluations_of_rollCrit {formula : String} {base : EvaluatedRoll} {maxBase : Int}
    {s s' : σ} {crit : Option EvaluatedRoll} {behavior : CritBehavior}
    (h : perform (rollCrit behavior formula base maxBase) s = (.ok crit, s')) :
    Evaluations s (if behavior.maximizes then [] else crit.toList) s' := by
  have maximum_leaves (text : String)
      (h : perform (some <$> maximum text ∅) s = (.ok crit, s')) : s' = s := by
    obtain ⟨roll, u, found, made⟩ := perform_bind_ok_iff.1 h
    cases made
    exact (perform_maximum_ok_iff.1 found).2
  cases behavior with
  | none =>
    cases h
    exact .nil s
  | bonusDiceOnly =>
    obtain ⟨roll, u, rolled, made⟩ := perform_bind_ok_iff.1 h
    cases made
    exact .cons (perform_rolling_ok_iff.1 rolled) (.nil _)
  | maximizeBase =>
    obtain rfl := maximum_leaves _ h
    exact .nil _
  | maximizeBoth =>
    obtain rfl := maximum_leaves _ h
    exact .nil _

theorem evaluations_of_critDice {roll : DamageRoll} {isCrit : Bool} {base : EvaluatedRoll}
    {maxBase : Int} {s s' : σ} {crit : Option EvaluatedRoll}
    (h : perform (c.critDice roll isCrit base maxBase) s = (.ok crit, s')) :
    Evaluations s (if c.critBehavior.maximizes then [] else crit.toList) s' := by
  unfold critDice at h
  have without {s s' : σ}
      (h : perform (pure none : Resolving σ (Option EvaluatedRoll)) s = (.ok crit, s')) :
      Evaluations s (if c.critBehavior.maximizes then [] else crit.toList) s' := by
    cases h
    rw [Option.toList_none, ite_self]
    exact .nil s
  split at h
  · obtain ⟨formula, u, found, h⟩ := perform_bind_ok_iff.1 h
    obtain ⟨-, rfl⟩ := Prod.mk.inj found
    cases formula with
    | none => exact without h
    | some formula => exact evaluations_of_rollCrit h
  · exact without h

theorem RolledDamage.evaluations {roll : DamageRoll} {p p' : Progress} {s u s' : σ}
    {d : DamageEntry} (h : c.RolledDamage roll p s u d p' s') :
    Evaluations s (d.evaluated c.critBehavior) s' :=
  .cons h.base (evaluations_of_critDice h.crit)

/-- The rolls of a step are those of its entry: the pool takes them all in, and the source is asked
for those that are not maximized. -/
theorem Worked.accounts {step : Step} {p p' : Progress} {entry : Option ResultEntry} {s s' : σ}
    (h : c.Worked p s (c.task step) entry p' s') :
    p'.dicePool = p.dicePool ++ entry.toList.flatMap (·.rolls) ∧
      Evaluations s (entry.toList.flatMap (·.evaluated c.critBehavior)) s' := by
  generalize asked : c.task step = task at h
  cases h with
  | quiet entry =>
    cases entry with
    | none => exact ⟨(List.append_nil _).symm, .nil s⟩
    | some e =>
      have quiet := task_eq_quiet asked
      simp only [Option.toList_some, List.flatMap_singleton, quiet.rolls, quiet.evaluated]
      exact ⟨(List.append_nil _).symm, .nil s⟩
  | @rolls kind title m b o s' rolled =>
    have all := evaluations_of_resolve rolled
    simp only [Option.toList_some, List.flatMap_singleton]
    cases kind with
    | attack => exact ⟨rfl, all⟩
    | check => exact ⟨rfl, all⟩
    | custom => exact ⟨rfl, all⟩
  | noLine => exact ⟨(List.append_nil _).symm, .nil s⟩
  | line rolled =>
    simp only [Option.toList_some, List.flatMap_singleton, rolled.after]
    exact ⟨rfl, rolled.evaluations⟩
  | noOther => exact ⟨(List.append_nil _).symm, .nil s⟩
  | other rolled =>
    simp only [Option.toList_some, List.flatMap_singleton, rolled.after]
    exact ⟨rfl, rolled.evaluations⟩

theorem Resolves.accounts {p p' : Progress} {s s' : σ} {visits : List Visit}
    (h : c.Resolves p s visits p' s') :
    p'.dicePool = p.dicePool ++ (visits.filterMap (·.entry)).flatMap (·.rolls) ∧
      Evaluations s ((visits.filterMap (·.entry)).flatMap (·.evaluated c.critBehavior)) s' := by
  induction h with
  | nil p s => exact ⟨(List.append_nil _).symm, .nil s⟩
  | @cons step p q p' s u s' entry visits visited rest ih =>
    obtain ⟨pool, asked⟩ := ((perform_resolveStep_ok_iff c).1 visited).accounts
    have split_off : (⟨step, p, entry, q⟩ :: visits).filterMap (·.entry) =
        entry.toList ++ visits.filterMap (·.entry) := by
      cases entry with
      | none => rfl
      | some e => rfl
    rw [split_off, List.flatMap_append, List.flatMap_append, ih.1, pool, List.append_assoc]
    exact ⟨rfl, asked.append ih.2⟩

end RunContext

/-- The books of a run that succeeds. Its pool has the rolls of its entries, no more and no less and
in that order, and whatever the source is, it was asked for all of them but the maximized critical
dice, and for nothing else. A script counts so many evaluations more, and is shorter by one face for
each of their dice if it was long enough. -/
theorem run_dice_accounting {η : Type} [RollHost η] (config : PipelineConfig) (itemId : String)
    (requests : List RollRequest) (params : RollParams) :
    let behavior := params.critBehavior.getD config.critBehavior
    (∀ (σ : Type) [RandomSource σ] (t t' : Table σ η) (r : CompositeResult),
      perform (run config itemId requests params) t = (.ok r, t') →
      r.dicePool = r.entries.flatMap (·.rolls) ∧
      Evaluations t.source (r.entries.flatMap (·.evaluated behavior)) t'.source) ∧
    ∀ (t t' : Table ScriptedSource η) (r : CompositeResult),
      perform (run config itemId requests params) t = (.ok r, t') →
      let evaluated := r.entries.flatMap (·.evaluated behavior)
      let maximized := r.entries.flatMap (·.maximized behavior)
      t'.source.evaluations + maximized.length = t.source.evaluations + r.dicePool.length ∧
      (sumOf (evaluated.map (·.dieCount)) ≤ t.source.remaining →
        t'.source.remaining + sumOf (evaluated.map (·.dieCount)) = t.source.remaining) := by
  intro behavior
  have books (σ : Type) [RandomSource σ] (t t' : Table σ η) (r : CompositeResult)
      (h : perform (run config itemId requests params) t = (.ok r, t')) :
      r.dicePool = r.entries.flatMap (·.rolls) ∧
      Evaluations t.source (r.entries.flatMap (·.evaluated behavior)) t'.source := by
    cases perform_run_eq_ok_iff.1 h with
    | @intro p host host' source entries q outcome actor prepared resolved settled =>
      obtain ⟨declared, added, q', u, first, second, steps, extra, rfl⟩ :=
        RunContext.perform_resolvePlan_ok_iff.1 resolved
      exact (first.append second).accounts
  refine ⟨books, fun t t' r h => ?_⟩
  obtain ⟨pool, asked⟩ := books ScriptedSource t t' r h
  obtain ⟨counted, queue⟩ := asked.scripted
  refine ⟨?_, fun enough => ?_⟩
  · rw [counted, pool, length_rolls behavior]
    omega
  · change t'.source.script.faces.length + _ = t.source.script.faces.length
    rw [queue, List.length_drop]
    exact Nat.sub_add_cancel enough

theorem brawl_completed :
    ∃ r t', perform (run { multiRollCount := 2 } "club" [.attack {}, .damage {}] {}) brawl =
        (.ok r, t') ∧
      r.entries = [.attack ⟨some "Attack", swung⟩, .damage clubbed] ∧
      r.dicePool = [d20, d20, d4 3, d4 1] ∧ t'.source = ⟨⟨[]⟩, 4⟩ := by
  have prepared : Prepared "club" [.attack {}, .damage {}] {} brawl.actor brawl.host swing
      brawl.host := ⟨rfl, rfl, rfl, rfl⟩
  have resolves : brawler.Resolves {} brawl.source [swingVisit, clubVisit] clubVisit.after
      ⟨⟨[]⟩, 4⟩ := .cons swing_visited (.cons club_visited (.nil _ _))
  have resolved := RunContext.perform_resolvePlan_ok_iff.2
    ⟨_, [], _, _, resolves, .nil _ _, rfl, rfl, rfl⟩
  have done := perform_run_eq_ok_iff.2 (.intro prepared resolved rfl)
  exact ⟨_, _, done, rfl, rfl, rfl⟩

/-- Two twenties and two small dice of damage, the second one critical: four rolls of one die each,
and four faces of the script. -/
theorem brawl_dice_accounting :
    ∃ r t', perform (run { multiRollCount := 2 } "club" [.attack {}, .damage {}] {}) brawl =
        (.ok r, t') ∧
      r.dicePool = [d20, d20, d4 3, d4 1] ∧ t'.source = ⟨⟨[]⟩, 4⟩ ∧
      r.dicePool = r.entries.flatMap (·.rolls) ∧
      Evaluations brawl.source (r.entries.flatMap (·.evaluated .bonusDiceOnly)) t'.source ∧
      t'.source.evaluations + (r.entries.flatMap (·.maximized .bonusDiceOnly)).length =
        brawl.source.evaluations + r.dicePool.length ∧
      t'.source.remaining + sumOf ((r.entries.flatMap (·.evaluated .bonusDiceOnly)).map
        (·.dieCount)) = brawl.source.remaining := by
  obtain ⟨r, t', done, entries, pool, source⟩ := brawl_completed
  obtain ⟨general, scripted⟩ := run_dice_accounting (η := StaticHost) { multiRollCount := 2 }
    "club" [.attack {}, .damage {}] {}
  obtain ⟨same, asked⟩ := general ScriptedSource brawl t' r done
  obtain ⟨counted, taken⟩ := scripted brawl t' r done
  refine ⟨r, t', done, pool, source, same, asked, counted, taken ?_⟩
  rw [entries]
  decide +kernel

end Tabletop
