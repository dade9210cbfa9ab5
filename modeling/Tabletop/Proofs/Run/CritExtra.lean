import Mathlib
import Tabletop.Proofs.Run.CritFlow
import Tabletop.Proofs.Run.Validation
/-!
# The extra damage behind the requests

A critical run may end with one more step, which rolls the extra damage line of the item. Whether it
does is up to the damage lines that were reached, and not to the requests for damage that were made:
a request for extra damage reaches a line as well, and one for damage that selects no line does not.
`run_adds_critExtra_iff` says so in terms of the requests.
-/

namespace Tabletop

open Playing

/-- Whether a step rolls a damage line, be it a blank one. -/
def Step.rollsLine (item : Item) : Step → Bool
  | .damage _ => true
  | .request (.critExtra index) => index.isSome || item.crit.extraDamage.isSome
  | .request _ => false

/-- Whether a request asks for a damage line of the item, or fires ammunition that has one. -/
def RollRequest.rollsLine (item : Item) (ammo : Option Item) : RollRequest → Bool
  | .damage args =>
    !(Plan.selected item.damage.parts.length args.index).isEmpty ||
      ammo.any (!·.damage.parts.isEmpty)
  | .critExtra index => index.isSome || item.crit.extraDamage.isSome
  | _ => false

/-- Whether a request is one for damage. -/
def RollRequest.isDamage : RollRequest → Bool
  | .damage _ => true
  | _ => false

/-! ## Plans -/

namespace Plan

variable {item : Item}

theorem primarySteps_any {args : DamageArgs} {versatile first : Bool} {indices : List Nat}
    {steps : List Step} (h : primarySteps item args versatile first indices = .ok steps) :
    steps.any (·.rollsLine item) = !indices.isEmpty := by
  cases indices with
  | nil =>
    cases h
    rfl
  | cons index indices =>
    obtain ⟨u, -, h⟩ := bind_eq_ok_iff.1 h
    obtain ⟨rest, -, h⟩ := bind_eq_ok_iff.1 h
    cases h
    rfl

theorem ammoSteps_any (fired : Item) (args : DamageArgs) :
    (ammoSteps fired args).any (·.rollsLine item) = !fired.damage.parts.isEmpty := by
  unfold ammoSteps
  cases fired.damage.parts with
  | nil => rfl
  | cons part parts => simp [List.range_succ_eq_map, Step.rollsLine]

/-- Ammunition matters to the first damage request only, but then it matters whether there is such
a request at all. -/
theorem any_rollsLine_eq (ammo : Option Item) (requests : List RollRequest) :
    requests.any (·.rollsLine item ammo) =
      (requests.any (·.rollsLine item none) ||
        (ammo.any (!·.damage.parts.isEmpty) && requests.any (·.isDamage))) := by
  induction requests with
  | nil => simp
  | cons request requests ih =>
    rw [List.any_cons, List.any_cons, List.any_cons, ih]
    cases request with
    | damage args => simp [RollRequest.rollsLine, RollRequest.isDamage]; grind
    | _ => simp [RollRequest.rollsLine, RollRequest.isDamage] <;> grind

theorem requestSteps_any {ammo : Option Item} {versatile : Bool} {requests : List RollRequest}
    {steps : List Step} (h : requestSteps item versatile ammo requests = .ok steps) :
    steps.any (·.rollsLine item) = requests.any (·.rollsLine item ammo) := by
  -- along the recursion of the expansion, which drops the ammunition at the first damage request
  fun_induction requestSteps item versatile ammo requests generalizing steps with
  | case1 ammo =>
    cases h
    rfl
  | case2 ammo args requests ih =>
    obtain ⟨primary, expanded, h⟩ := bind_eq_ok_iff.1 h
    obtain ⟨rest, later, h⟩ := bind_eq_ok_iff.1 h
    cases h
    have fired : (ammo.elim [] (ammoSteps · args)).any (·.rollsLine item) =
        ammo.any (!·.damage.parts.isEmpty) := by
      cases ammo with
      | none => rfl
      | some fired => exact ammoSteps_any fired args
    rw [List.any_append, List.any_append, primarySteps_any expanded, fired, ih later,
      List.any_cons, any_rollsLine_eq ammo requests]
    simp only [RollRequest.rollsLine]
    cases ammo.any (!·.damage.parts.isEmpty) <;> simp
  | case3 ammo index requests ih =>
    obtain ⟨u, -, h⟩ := bind_eq_ok_iff.1 h
    obtain ⟨rest, later, h⟩ := bind_eq_ok_iff.1 h
    cases h
    rw [List.any_cons, List.any_cons, ih later]
    rfl
  | case4 ammo request requests notDamage notIndexed ih =>
    obtain ⟨rest, later, h⟩ := bind_eq_ok_iff.1 h
    cases h
    rw [List.any_cons, List.any_cons, ih later]
    cases request with
    | damage args => exact absurd rfl (notDamage args)
    | _ => rfl

/-- A plan rolls a damage line exactly if one of its requests asks for one. -/
theorem expand_any {ammo : Option Item} {versatile : Bool} {requests : List RollRequest}
    {steps : List Step} (h : expand requests item ammo versatile = .ok steps) :
    steps.any (·.rollsLine item) = requests.any (·.rollsLine item ammo) := by
  unfold expand at h
  cases found : item.crit.extraDamage with
  | none =>
    rw [found] at h
    exact requestSteps_any h
  | some index =>
    rw [found] at h
    obtain ⟨u, -, h⟩ := bind_eq_ok_iff.1 h
    exact requestSteps_any h

end Plan

/-! ## Traces -/

namespace RunContext

variable {c : RunContext} {σ : Type} [RandomSource σ]

omit [RandomSource σ] in
theorem rollsLine_iff (step : Step) :
    step.rollsLine c.item = true ↔ ∃ roll, c.task step = .line roll := by
  cases step with
  | damage step => exact ⟨fun _ => ⟨_, rfl⟩, fun _ => rfl⟩
  | request request =>
    cases request with
    | critExtra index =>
      rw [task_critExtra]
      unfold Step.rollsLine
      cases index with
      | some index => simp
      | none => cases c.item.crit.extraDamage <;> simp
    | _ => simp [Step.rollsLine, task]

/-- A step notes down that it rolled a damage line, and nothing else does. -/
theorem Worked.hasDamage {step : Step} {p p' : Progress} {entry : Option ResultEntry} {s s' : σ}
    (h : c.Worked p s (c.task step) entry p' s') :
    p'.hasDamage = (p.hasDamage || step.rollsLine c.item) := by
  generalize asked : c.task step = task at h
  have unrolled (other : ∀ roll, task ≠ .line roll) : step.rollsLine c.item = false := by
    rw [Bool.eq_false_iff, ne_eq, rollsLine_iff]
    rintro ⟨roll, same⟩
    exact other roll (asked.symm.trans same)
  have rolled {roll} (line : task = .line roll) : step.rollsLine c.item = true :=
    (rollsLine_iff step).2 ⟨roll, asked.trans line⟩
  cases h with
  | quiet entry => simp [unrolled]
  | rolls rolls => simp [unrolled, Progress.recordOutcome]
  | noLine => simp [rolled rfl, Progress.markDamage]
  | line damage => simp [rolled rfl, damage.after, Progress.recordRolls, Progress.markDamage]
  | noOther => simp [unrolled]
  | other damage => simp [unrolled, damage.after, Progress.recordRolls]

theorem Resolves.hasDamage_eq {p p' : Progress} {s s' : σ} {visits : List Visit}
    (h : c.Resolves p s visits p' s') :
    p'.hasDamage = (p.hasDamage || (visits.map (·.step)).any (·.rollsLine c.item)) := by
  induction h with
  | nil p s => simp
  | cons visited rest ih =>
    rw [ih, ((perform_resolveStep_ok_iff c).1 visited).hasDamage, List.map_cons, List.any_cons,
      Bool.or_assoc]

/-- The extra damage takes no part in making a run critical. -/
theorem Resolves.isCrit_added {q q' : Progress} {u s' : σ} {added : List Visit}
    (h : c.Resolves q u added q' s') (extra : added.map (·.step) = c.addedSteps q) :
    q'.isCrit = q.isCrit := by
  have silent : added.any (·.flipsCrit) = false := by
    rw [List.any_eq_false]
    intro v mem flips
    have step : v.step = .request (.critExtra none) := by
      have mem := List.mem_map_of_mem (f := (·.step)) mem
      rw [extra] at mem
      unfold addedSteps at mem
      split at mem
      · exact List.mem_singleton.1 mem
      · cases mem
    obtain ⟨earlier, later, rfl⟩ := List.append_of_mem mem
    have rules := h.critRules
    obtain ⟨e, made, flips⟩ := (Option.any_eq_true _ _).1 flips
    cases e with
    | attack roll =>
      obtain ⟨args, same, -⟩ := rules.attack roll made
      cases step.symm.trans same
    | check roll =>
      obtain ⟨args, same, -⟩ := rules.check roll made
      cases step.symm.trans same
    | _ => cases flips
  rw [h.isCrit_eq, silent, Bool.or_false]

end RunContext

/-- When a run adds the extra damage behind its requests: exactly if it is critical, the item has an
extra damage line, and some request reaches a damage line, whether it is one for damage or not. It
is then the only step that is added. -/
theorem run_adds_critExtra_iff {σ η : Type} [RandomSource σ] [RollHost η] (config : PipelineConfig)
    (itemId : String) (requests : List RollRequest) (params : RollParams) (t t' : Table σ η)
    (r : CompositeResult) (h : perform (run config itemId requests params) t = (.ok r, t')) :
    ∃ p host declared added q u q',
      Prepared itemId requests params t.actor t.host p host ∧
      (p.context config params t.actor).Resolves {} t.source declared q u ∧
      (p.context config params t.actor).Resolves q u added q' t'.source ∧
      declared.map (·.step) = p.steps ∧
      r.entries = (declared ++ added).filterMap (·.entry) ∧
      added.map (·.step) =
        if r.isCrit = true ∧ p.item.crit.extraDamage.isSome = true ∧
            ∃ request ∈ requests,
              request.rollsLine p.item (p.item.ammo? t.actor params) = true
        then [.request (.critExtra none)] else [] := by
  cases perform_run_eq_ok_iff.1 h with
  | @intro p host host' source entries q' outcome actor prepared resolved settled =>
    obtain ⟨declared, added, q, u, first, second, steps, extra, rfl⟩ :=
      RunContext.perform_resolvePlan_ok_iff.1 resolved
    refine ⟨p, host, declared, added, q, u, q', prepared, first, second, steps, rfl, ?_⟩
    have crit : q'.isCrit = q.isCrit := second.isCrit_added extra
    have lines : q.hasDamage =
        requests.any (·.rollsLine p.item (p.item.ammo? t.actor params)) := by
      rw [first.hasDamage_eq, steps]
      exact Plan.expand_any prepared.planned
    rw [extra]
    unfold RunContext.addedSteps RunContext.addsCritExtra
    refine if_congr ?_ rfl rfl
    change (q.isCrit && q.hasDamage && p.item.crit.extraDamage.isSome) = true ↔
      q'.isCrit = true ∧ _
    rw [crit, lines, ← List.any_eq_true, Bool.and_eq_true, Bool.and_eq_true, and_assoc]
    exact and_congr_right fun _ => and_comm

/-! ## A charge -/

/-- The club, with its damage line as extra damage. -/
def spikedClub : Item := { club with crit := { extraDamage := some 0 } }

/-- A table where both dice of an attack show twenty. -/
def pit : Table ScriptedSource StaticHost where
  actor := { id := "ogre", name := "Ogre", items := [spikedClub] }
  source := .ofFaces [20, 20, 3, 1]
  host := {}

/-- The plan of an attack and a request for extra damage, without one for damage. -/
def charge : Preparation where
  item := spikedClub
  cast := none
  steps := [.request (.attack {}), .request (.critExtra none)]

def charger : RunContext := charge.context { multiRollCount := 2 } {} pit.actor

def charged : MultiRollOutcome :=
  (charger.attackRoll {}).1.outcomeOf (.faces [20]) [d20, d20]

/-- The entry of the extra damage, which never has critical dice. -/
def spiked (face : Nat) : DamageEntry :=
  charger.damageEntry (charger.lineRoll (RunContext.critExtraStep 0) spikedClub ⟨"1d4", none⟩ "1d4")
    (d4 face) 4 none none

def chargeVisit : Visit where
  step := .request (.attack {})
  before := {}
  entry := some (.attack ⟨some "Attack", charged⟩)
  after := ({} : Progress).recordOutcome charged

def spikeVisit (before : Progress) (face : Nat) : Visit where
  step := .request (.critExtra none)
  before := before
  entry := some (.damage (spiked face))
  after := before.markDamage.recordRolls [d4 face]

theorem charge_visited :
    perform (charger.resolveStep chargeVisit.step chargeVisit.before) pit.source =
      (.ok (chargeVisit.entry, chargeVisit.after), ⟨⟨[3, 1]⟩, 2⟩) := by
  refine (RunContext.perform_resolveStep_ok_iff _).2 (.rolls ?_)
  have composed : (charger.attackRoll {}).1.composed = "1d20" := by decide
  have count : (charger.attackRoll {}).1.rollCount = 2 := by decide
  refine perform_resolve_ok_iff.2 ⟨[.dice ⟨1, 20, []⟩], [d20, d20], ?_, ?_, rfl⟩
  · rw [composed]
    exact parse_d20
  · rw [composed, count]
    refine perform_evaluateTimes_succ_ok_iff.2 ⟨d20, ⟨⟨[20, 3, 1]⟩, 1⟩, [d20], ?_, ?_, rfl⟩
    · exact perform_evaluate_scripted_ok parse_d20 (by decide +kernel) (by decide +kernel)
    · refine perform_evaluateTimes_succ_ok_iff.2 ⟨d20, ⟨⟨[3, 1]⟩, 2⟩, [], ?_, rfl, rfl⟩
      exact perform_evaluate_scripted_ok parse_d20 (by decide +kernel) (by decide +kernel)

/-- The extra damage takes one face of the script, wherever in the run it is rolled. -/
theorem spike_visited (p : Progress) {s s' : ScriptedSource} {face : Nat}
    (rolled : perform (RandomSource.evaluate "1d4"
      (charger.lineBindings (RunContext.critExtraStep 0) spikedClub)) s = (.ok (d4 face), s')) :
    perform (charger.resolveStep (spikeVisit p face).step (spikeVisit p face).before) s =
      (.ok ((spikeVisit p face).entry, (spikeVisit p face).after), s') := by
  have found : charger.task (.request (.critExtra none)) =
      .line (.ok (some (charger.lineRoll (RunContext.critExtraStep 0) spikedClub ⟨"1d4", none⟩
        "1d4"))) := by
    refine congrArg Task.line (bind_eq_ok_iff.2 ⟨(), rfl, RunContext.damageRoll?_eq_some_iff.2
      ⟨spikedClub, ⟨"1d4", none⟩, "1d4", rfl, rfl, ?_, ?_, rfl⟩⟩)
    · decide
    · exact eq_ok_of_toOption (by decide)
  refine (RunContext.perform_resolveStep_ok_iff _).2 ?_
  change charger.Worked p s (charger.task (.request (.critExtra none))) _ _ s'
  rw [found]
  refine .line (u := s') ⟨rolled, ⟨d4 4, maximize_d4, rfl⟩, ?_, rfl, rfl, rfl⟩
  have unwanted : charger.wantsCrit p.markDamage.isCrit .never = false := rfl
  exact congrFun (congrArg perform (if_neg (Bool.eq_false_iff.1 unwanted))) _

theorem charge_prepared : Prepared "club" [.attack {}, .critExtra none] {} pit.actor pit.host charge
    pit.host := ⟨rfl, rfl, rfl, rfl⟩

theorem charge_completed :
    ∃ r t', perform (run { multiRollCount := 2 } "club" [.attack {}, .critExtra none] {}) pit =
        (.ok r, t') ∧
      r.isCrit = true ∧ r.damageEntries = [spiked 3, spiked 1] := by
  let first := spikeVisit chargeVisit.after 3
  let second := spikeVisit first.after 1
  let between : ScriptedSource := ⟨⟨[1]⟩, 3⟩
  have declared : charger.Resolves {} pit.source [chargeVisit, first] first.after between := by
    refine .cons charge_visited (.cons (spike_visited _ ?_) (.nil _ _))
    exact perform_evaluate_scripted_ok parse_d4 (by decide +kernel) (by decide +kernel)
  have added : charger.Resolves first.after between [second] second.after ⟨⟨[]⟩, 4⟩ := by
    refine .cons (spike_visited _ ?_) (.nil _ _)
    exact perform_evaluate_scripted_ok parse_d4 (by decide +kernel) (by decide +kernel)
  have critical : charger.addsCritExtra first.after = true := by decide
  have resolved := RunContext.perform_resolvePlan_ok_iff.2
    ⟨_, _, _, _, declared, added, rfl, (if_pos critical).symm, rfl⟩
  have done := perform_run_eq_ok_iff.2 (.intro charge_prepared resolved rfl)
  exact ⟨_, _, done, by decide +kernel, rfl⟩

/-- The extra damage is added behind a charge, which asked for it already. -/
theorem charge_adds_step :
    ∃ r t', perform (run { multiRollCount := 2 } "club" [.attack {}, .critExtra none] {}) pit =
        (.ok r, t') ∧
      ∃ declared added : List Visit,
        declared.map (·.step) = [.request (.attack {}), .request (.critExtra none)] ∧
        added.map (·.step) = [.request (.critExtra none)] ∧
        r.entries = (declared ++ added).filterMap (·.entry) := by
  obtain ⟨r, t', done, critical, -⟩ := charge_completed
  obtain ⟨p, host, declared, added, q, u, q', prepared, -, -, steps, entries, extra⟩ :=
    run_adds_critExtra_iff _ _ _ _ _ _ r done
  have same := (prepare_eq_ok_iff.2 prepared).symm.trans (prepare_eq_ok_iff.2 charge_prepared)
  cases same
  rw [if_pos ⟨critical, rfl, .critExtra none, by simp, rfl⟩] at extra
  exact ⟨r, t', done, declared, added, steps, extra, entries⟩

/-- A critical attack and one request for extra damage, without any for damage, roll the extra
damage line twice. -/
theorem charge_adds_critExtra :
    ∃ r t', perform (run { multiRollCount := 2 } "club" [.attack {}, .critExtra none] {}) pit =
        (.ok r, t') ∧
      r.isCrit = true ∧ spikedClub.crit.extraDamage.isSome = true ∧
      ¬(∃ request ∈ ([.attack {}, .critExtra none] : List RollRequest), request.isDamage = true) ∧
      r.damageEntries = [spiked 3, spiked 1] := by
  obtain ⟨r, t', done, critical, rolled⟩ := charge_completed
  exact ⟨r, t', done, critical, rfl, by decide, rolled⟩

end Tabletop
