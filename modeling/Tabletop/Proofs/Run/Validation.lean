import Mathlib
import Tabletop.Proofs.Run.Phases
import Tabletop.Proofs.Run.Resolution
/-!
# What fails before the first die

The plan of a run is checked before its first step. `Step.InRange` is what the check establishes of
every step, and it is all that the later lookups of damage lines need: once the dice are out, a run
can only fail for a formula, or because the linked resource is refused.
-/

namespace Tabletop

open Playing

/-! ## Plans that were checked -/

/-- The damage lines that a step asks for are there. -/
def Step.InRange (item : Item) (ammo : Option Item) : Step → Prop
  | .damage ⟨index, _, _, _, .primary⟩ => index < item.damage.parts.length
  | .damage ⟨index, _, _, _, .ammo⟩ => ∀ fired ∈ ammo, index < fired.damage.parts.length
  | .request (.critExtra (some index)) => index.toNat < item.damage.parts.length
  | .request (.critExtra none) => ∀ index ∈ item.crit.extraDamage, index < item.damage.parts.length
  | .request _ => True

namespace Plan

variable {item : Item}

theorem checkIndex_eq_ok_iff {index : Nat} {u : Unit} :
    checkIndex item index = .ok u ↔ index < item.damage.parts.length := by
  unfold checkIndex
  split
  · simp [*]
  · simp [*]

theorem primarySteps_inRange {args : DamageArgs} {versatile first : Bool} {indices : List Nat}
    {steps : List Step} (ammo : Option Item)
    (h : primarySteps item args versatile first indices = .ok steps) :
    ∀ step ∈ steps, step.InRange item ammo := by
  induction indices generalizing first steps with
  | nil =>
    cases h
    intro step mem
    cases mem
  | cons index indices ih =>
    obtain ⟨u, checked, h⟩ := bind_eq_ok_iff.1 h
    obtain ⟨rest, expanded, h⟩ := bind_eq_ok_iff.1 h
    cases h
    intro step mem
    rcases List.mem_cons.1 mem with rfl | mem
    · exact checkIndex_eq_ok_iff.1 checked
    · exact ih expanded step mem

theorem ammoSteps_inRange {ammo : Option Item} {fired : Item} (h : ammo = some fired)
    (args : DamageArgs) : ∀ step ∈ ammoSteps fired args, step.InRange item ammo := by
  intro step mem
  obtain ⟨index, bound, rfl⟩ := List.mem_map.1 mem
  intro other same
  rw [h] at same
  cases same
  exact List.mem_range.1 bound

/-- The ammunition is fired by one damage request at most, so that the requests after it are
expanded without. -/
theorem requestSteps_inRange {ammo fired : Option Item} {versatile : Bool}
    {requests : List RollRequest} {steps : List Step} (hfired : ∀ item ∈ fired, ammo = some item)
    (extra : ∀ index ∈ item.crit.extraDamage, index < item.damage.parts.length)
    (h : requestSteps item versatile fired requests = .ok steps) :
    ∀ step ∈ steps, step.InRange item ammo := by
  -- along the recursion of the expansion, which changes the ammunition and not the item
  fun_induction requestSteps item versatile fired requests generalizing steps with
  | case1 fired =>
    cases h
    intro step mem
    cases mem
  | case2 fired args requests ih =>
    obtain ⟨primary, expanded, h⟩ := bind_eq_ok_iff.1 h
    obtain ⟨rest, later, h⟩ := bind_eq_ok_iff.1 h
    cases h
    intro step mem
    rcases List.mem_append.1 mem with mem | mem
    · rcases List.mem_append.1 mem with mem | mem
      · exact primarySteps_inRange ammo expanded step mem
      · cases fired with
        | none => cases mem
        | some item => exact ammoSteps_inRange (hfired item rfl) args step mem
    · exact ih (by simp) later step mem
  | case3 fired index requests ih =>
    obtain ⟨u, checked, h⟩ := bind_eq_ok_iff.1 h
    obtain ⟨rest, later, h⟩ := bind_eq_ok_iff.1 h
    cases h
    intro step mem
    rcases List.mem_cons.1 mem with rfl | mem
    · exact checkIndex_eq_ok_iff.1 checked
    · exact ih hfired later step mem
  | case4 fired request requests notDamage notIndexed ih =>
    obtain ⟨rest, later, h⟩ := bind_eq_ok_iff.1 h
    cases h
    intro step mem
    rcases List.mem_cons.1 mem with rfl | mem
    · cases request with
      | critExtra index =>
        cases index with
        | none => exact extra
        | some index => exact absurd rfl (notIndexed index)
      | _ => trivial
    · exact ih hfired later step mem

/-- A plan that was made has all of its damage lines, and so has the step that may be added. -/
theorem expand_inRange {ammo : Option Item} {versatile : Bool} {requests : List RollRequest}
    {steps : List Step} (h : expand requests item ammo versatile = .ok steps) :
    (∀ step ∈ steps, step.InRange item ammo) ∧
      (Step.request (.critExtra none)).InRange item ammo := by
  have extra : ∀ index ∈ item.crit.extraDamage, index < item.damage.parts.length := by
    intro index mem
    unfold expand at h
    rw [Option.mem_def.1 mem] at h
    obtain ⟨u, checked, -⟩ := bind_eq_ok_iff.1 h
    exact checkIndex_eq_ok_iff.1 checked
  have expanded : requestSteps item versatile ammo requests = .ok steps := by
    unfold expand at h
    cases found : item.crit.extraDamage with
    | none =>
      rw [found] at h
      exact h
    | some index =>
      rw [found] at h
      obtain ⟨u, -, h⟩ := bind_eq_ok_iff.1 h
      exact h
  exact ⟨requestSteps_inRange (fun _ => id) extra expanded, extra⟩

end Plan

/-! ## Steps that only fail for a formula -/

section

variable {σ α β : Type}

/-- A computation that fails for a formula, if at all. -/
def FormulaErrorsOnly (x : Resolving σ α) : Prop :=
  ∀ s e s', perform x s = (.error e, s') → ∃ f, e = .formula f

namespace FormulaErrorsOnly

theorem pure (a : α) : FormulaErrorsOnly (pure a : Resolving σ α) := by
  intro s e s' h
  cases h

theorem bind {x : Resolving σ α} {f : α → Resolving σ β} (hx : FormulaErrorsOnly x)
    (hf : ∀ a, FormulaErrorsOnly (f a)) : FormulaErrorsOnly (x >>= f) := by
  intro s e s' h
  rcases perform_bind_error_iff.1 h with h | ⟨a, u, -, h⟩
  · exact hx s e s' h
  · exact hf a u e s' h

theorem map {x : Resolving σ α} (g : α → β) (hx : FormulaErrorsOnly x) :
    FormulaErrorsOnly (g <$> x) :=
  hx.bind fun a => pure (g a)

theorem rolling (x : Rolling σ α) : FormulaErrorsOnly (Tabletop.rolling x) := by
  intro s e s' h
  rw [perform_rolling] at h
  rcases hx : perform x s with ⟨f | a, u⟩
  · rw [hx] at h
    cases h
    exact ⟨f, rfl⟩
  · rw [hx] at h
    cases h

theorem lift {x : Except RollError α} (hx : ∀ e, x = .error e → ∃ f, e = .formula f) :
    FormulaErrorsOnly (liftM x : Resolving σ α) := by
  intro s e s' h
  obtain ⟨h, -⟩ := Prod.mk.inj h
  exact hx e h

end FormulaErrorsOnly

theorem mapError_formula {x : Except FormulaError α} {e : RollError}
    (h : x.mapError RollError.formula = .error e) : ∃ f, e = .formula f := by
  cases x with
  | error f =>
    cases h
    exact ⟨f, rfl⟩
  | ok a => cases h

end

namespace RunContext

variable {c : RunContext} {σ : Type} [RandomSource σ]

theorem rollCrit_formula (behavior : CritBehavior) (formula : String) (base : EvaluatedRoll)
    (maxBase : Int) : FormulaErrorsOnly (rollCrit (σ := σ) behavior formula base maxBase) := by
  cases behavior with
  | none => exact .pure none
  | bonusDiceOnly => exact .map some (.rolling _)
  | maximizeBase => exact .map some (.lift fun _ => mapError_formula)
  | maximizeBoth => exact .map some (.lift fun _ => mapError_formula)

theorem critDice_formula (roll : DamageRoll) (isCrit : Bool) (base : EvaluatedRoll)
    (maxBase : Int) : FormulaErrorsOnly (c.critDice (σ := σ) roll isCrit base maxBase) := by
  unfold critDice resolveCrit
  split
  · refine .bind (.lift fun _ => mapError_formula) fun formula => ?_
    cases formula with
    | none => exact .pure none
    | some formula => exact rollCrit_formula _ formula base maxBase
  · exact .pure none

omit [RandomSource σ] in
theorem critMaximum_formula (crit : Option EvaluatedRoll) :
    FormulaErrorsOnly (critMaximum (σ := σ) crit) := by
  cases crit with
  | none => exact .pure none
  | some crit => exact .bind (.lift fun _ => mapError_formula) fun highest => .pure _

theorem resolveRoll_formula (roll : DamageRoll) (p : Progress) :
    FormulaErrorsOnly (c.resolveRoll (σ := σ) roll p) := by
  rw [resolveRoll_eq]
  refine .bind (.rolling _) fun base => .bind (.lift fun _ => mapError_formula) fun highest => ?_
  exact .bind (critDice_formula roll _ base _) fun crit =>
    .bind (critMaximum_formula crit) fun maxCrit => .pure _

/-- The work of a step fails for a formula only, where the damage line can be found. -/
theorem work_formula {task : Task}
    (found : ∀ e, task = .line (.error e) → ∃ f, e = .formula f) (p : Progress) :
    FormulaErrorsOnly (c.work (σ := σ) task p) := by
  cases task with
  | quiet entry => exact .pure _
  | rolls kind title m b => exact .bind (.rolling _) fun o => .pure _
  | line roll =>
    refine .bind (.lift fun e h => found e (h ▸ rfl)) fun roll => ?_
    cases roll with
    | none => exact .pure _
    | some roll => exact .bind (resolveRoll_formula roll _) fun x => .pure _
  | other roll =>
    cases roll with
    | none => exact .pure _
    | some roll => exact .bind (resolveRoll_formula roll _) fun x => .pure _

theorem lineFormula_formula {step : DamageStep} {item : Item} {part : DamagePart} {e : RollError}
    (h : c.lineFormula step item part = .error e) : ∃ f, e = .formula f := by
  unfold lineFormula at h
  split at h
  · exact mapError_formula h
  · cases h

/-- With the line in range, the roll of a step fails only where its formula cannot grow. -/
theorem damageRoll?_formula {step : DamageStep}
    (inRange : (Step.damage step).InRange c.item c.ammo) {e : RollError}
    (h : c.damageRoll? step = .error e) : ∃ f, e = .formula f := by
  rw [damageRoll?_eq] at h
  cases found : c.lineItem? step.target with
  | none =>
    rw [found] at h
    cases h
  | some item =>
    have bound : step.index < item.damage.parts.length := by
      obtain ⟨index, versatile, crit, context, whose⟩ := step
      cases whose with
      | primary =>
        cases found
        exact inRange
      | ammo => exact inRange item found
    simp only [found, List.getElem?_eq_getElem bound] at h
    split at h
    · cases h
    · cases grown : c.lineFormula step item item.damage.parts[step.index] with
      | error f =>
        rw [grown] at h
        cases h
        exact lineFormula_formula grown
      | ok formula =>
        rw [grown] at h
        cases h

theorem critExtraRoll_formula {index : Nat} (bound : index < c.item.damage.parts.length)
    {e : RollError} (h : c.critExtraRoll index = .error e) : ∃ f, e = .formula f := by
  unfold critExtraRoll at h
  rw [Plan.checkIndex_eq_ok_iff (u := ()).2 bound] at h
  have inRange : (Step.damage (critExtraStep index)).InRange c.item c.ammo := bound
  exact damageRoll?_formula inRange h

/-- A step that is in range fails for a formula only, whatever came before it. -/
theorem resolveStep_formula {step : Step} (inRange : step.InRange c.item c.ammo) (p : Progress) :
    FormulaErrorsOnly (c.resolveStep (σ := σ) step p) := by
  rw [resolveStep_eq]
  refine work_formula (fun e h => ?_) p
  cases step with
  | damage step =>
    exact damageRoll?_formula inRange (Task.line.inj h)
  | request request =>
    cases request with
    | critExtra index =>
      rw [task_critExtra] at h
      cases index with
      | none =>
        cases found : c.item.crit.extraDamage with
        | none =>
          rw [found] at h
          cases h
        | some index =>
          rw [found] at h
          exact critExtraRoll_formula (inRange index found) (Task.line.inj h)
      | some index =>
        exact critExtraRoll_formula inRange (Task.line.inj h)
    | _ => cases h

theorem resolveSteps_formula {steps : List Step}
    (inRange : ∀ step ∈ steps, step.InRange c.item c.ammo) (p : Progress) :
    FormulaErrorsOnly (c.resolveSteps (σ := σ) steps p) := by
  induction steps generalizing p with
  | nil => exact .pure _
  | cons step steps ih =>
    refine .bind (resolveStep_formula (inRange step List.mem_cons_self) p) fun x => ?_
    refine .bind (ih (fun step mem => inRange step (List.mem_cons_of_mem _ mem)) x.2) fun y => ?_
    exact .pure _

theorem resolvePlan_formula {steps : List Step}
    (inRange : ∀ step ∈ steps, step.InRange c.item c.ammo)
    (added : (Step.request (.critExtra none)).InRange c.item c.ammo) :
    FormulaErrorsOnly (c.resolvePlan (σ := σ) steps) := by
  unfold resolvePlan
  refine .bind (resolveSteps_formula inRange {}) fun ⟨entries, q⟩ => ?_
  simp only
  split
  · exact .bind (resolveStep_formula added q) fun y => .pure _
  · exact .pure _

end RunContext

/-! ## Runs -/

/-- The errors that can be found out without dice. -/
def RollError.isEarly : RollError → Bool
  | .unknownItem _ => true
  | .slotSelectionCancelled _ => true
  | .noSlotsAvailable _ _ => true
  | .insufficientUses _ => true
  | .notRecharged _ => true
  | .damageIndexOutOfRange _ _ _ => true
  | _ => false

section

variable {σ η : Type} [RandomSource σ] [RollHost η]
variable {config : PipelineConfig} {itemId : String} {requests : List RollRequest}
  {params : RollParams} {t t' : Table σ η}

/-- Every step of a run, and the one that may be added, is in range where it is resolved. -/
theorem Prepared.inRange {actor : Actor} {host host' : η} {p : Preparation}
    (h : Prepared itemId requests params actor host p host') (config : PipelineConfig) :
    let c := p.context config params actor
    (∀ step ∈ p.steps, step.InRange c.item c.ammo) ∧
      (Step.request (.critExtra none)).InRange c.item c.ammo :=
  Plan.expand_inRange h.planned

/-- A run that was prepared fails for a formula, or because the linked resource is refused. -/
theorem error_of_prepared {p : Preparation} {host : η} {e : RollError}
    (prepared : Prepared itemId requests params t.actor t.host p host)
    (h : perform (run config itemId requests params) t = (.error e, t')) :
    (∃ f, e = .formula f) ∨ e = .resourceConsumptionRefused p.item.name := by
  have settled := prepare_eq_ok_iff.2 prepared
  cases perform_run_eq_error_iff.1 h with
  | preparing unprepared =>
    rw [settled] at unprepared
    cases unprepared
  | resolving other unresolved =>
    obtain ⟨inRange, added⟩ := other.inRange config
    exact Or.inl (RunContext.resolvePlan_formula inRange added _ _ _ unresolved)
  | settling other resolved unsettled =>
    -- the preparation of the run that was given up is the one at hand
    have same := prepare_eq_ok_iff.2 other
    rw [settled] at same
    cases same
    exact Or.inr (settle_eq_error_iff.1 unsettled).2

omit [RandomSource σ] in
/-- A commit after the preparation fails only where the linked resource is refused. -/
theorem commit_error_of_prepared {actor : Actor} {host host' : η} {p : Preparation}
    (prepared : Prepared itemId requests params actor host p host') (unchanged : t.actor = actor)
    {e : RollError} (h : perform (commit p.item params p.cast) t = (.error e, t')) :
    e = .resourceConsumptionRefused p.item.name := by
  subst unchanged
  rw [perform_commit t prepared.item?_id prepared.affordable] at h
  rcases unsettled : p.settle params t.actor t.host with ⟨e' | ⟨outcome, actor'⟩, host₁⟩
  · rw [unsettled] at h
    cases h
    exact (settle_eq_error_iff.1 unsettled).2
  · rw [unsettled] at h
    cases h

/-- An early error is one of the preparation. -/
theorem unprepared_of_early {e : RollError} (early : e.isEarly = true)
    (h : perform (run config itemId requests params) t = (.error e, t')) :
    ∃ host, prepare itemId requests params t.actor t.host = (.error e, host) ∧
      t' = { t with host } := by
  cases perform_run_eq_error_iff.1 h with
  | @preparing host unprepared => exact ⟨host, unprepared, rfl⟩
  | resolving prepared unresolved =>
    rcases error_of_prepared prepared h with ⟨f, rfl⟩ | rfl
    · cases early
    · cases early
  | settling prepared resolved unsettled =>
    rcases error_of_prepared prepared h with ⟨f, rfl⟩ | rfl
    · cases early
    · cases early

end

/-- A run that fails with an early error has rolled nothing: the source is as it was, and any other
source would have been left alone as well. Once a run is prepared, none of its steps and not the
commit can fail early: all that is left are errors of formulas and a linked resource that is
refused. -/
theorem run_fails_before_dice {σ η : Type} [RandomSource σ] [RollHost η] (config : PipelineConfig)
    (itemId : String) (requests : List RollRequest) (params : RollParams) (t : Table σ η) :
    (∀ e t', perform (run config itemId requests params) t = (.error e, t') →
      e.isEarly = true →
      t'.source = t.source ∧
      ∀ (σ' : Type) [RandomSource σ'] (source : σ'),
        perform (run config itemId requests params) (⟨t.actor, source, t.host⟩ : Table σ' η) =
          (.error e, ⟨t'.actor, source, t'.host⟩)) ∧
    ∀ p host, Prepared itemId requests params t.actor t.host p host →
      (∀ step, step ∈ p.steps ∨ step = .request (.critExtra none) →
        ∀ (q : Progress) (s : σ) e s',
          perform ((p.context config params t.actor).resolveStep step q) s = (.error e, s') →
          ∃ f, e = .formula f) ∧
      (∀ (u u' : Table σ η) e, u.actor = t.actor →
        perform (commit p.item params p.cast) u = (.error e, u') →
        e = .resourceConsumptionRefused p.item.name) ∧
      ∀ e t', perform (run config itemId requests params) t = (.error e, t') →
        (∃ f, e = .formula f) ∨ e = .resourceConsumptionRefused p.item.name := by
  constructor
  · intro e t' h early
    obtain ⟨host, unprepared, rfl⟩ := unprepared_of_early early h
    refine ⟨rfl, fun σ' _ source => ?_⟩
    rw [perform_run, unprepared]
  · intro p host prepared
    obtain ⟨inRange, added⟩ := prepared.inRange config
    refine ⟨?_, ?_, ?_⟩
    · rintro step (mem | rfl) q s e s' h
      · exact RunContext.resolveStep_formula (inRange step mem) q s e s' h
      · exact RunContext.resolveStep_formula added q s e s' h
    · intro u u' e unchanged h
      exact commit_error_of_prepared prepared unchanged h
    · intro e t' h
      exact error_of_prepared prepared h

/-- A flask with one damage line, which needs oil. -/
def flask : Item where
  id := "flask"
  name := "Flask"
  kind := .consumable
  damage := ⟨[⟨"2d6", none⟩], none⟩
  consume := some ⟨.material, "oil", 1⟩

/-- A table where the oil is refused. -/
def dryTable : Table ScriptedSource StaticHost where
  actor := { id := "thrower", name := "Thrower", items := [flask] }
  source := .ofFaces [20, 6]
  host := { allowConsumption := false }

def oiled : RollParams := { consume := { useLinkedResource := true } }

/-- A second damage line is missed before the attack is rolled; with a plan that is in order, a
custom roll fails for its formula, and the commit for the oil. -/
theorem flask_fails_before_dice :
    (∀ (σ' : Type) [RandomSource σ'] (source : σ'),
      perform (run {} "flask" [.attack {}, .damage { index := .index 1 }] oiled)
        (⟨dryTable.actor, source, dryTable.host⟩ : Table σ' StaticHost) =
        (.error (.damageIndexOutOfRange "Flask" 1 1), ⟨dryTable.actor, source, dryTable.host⟩)) ∧
    ∃ p host, Prepared "flask" [.custom { formula := "(" }] oiled dryTable.actor dryTable.host
        p host ∧
      (∃ step ∈ p.steps, ∃ e s', perform ((p.context {} oiled dryTable.actor).resolveStep step {})
        dryTable.source = (.error e, s') ∧ ∃ f, e = .formula f) ∧
      (∃ e u', perform (commit p.item oiled p.cast) dryTable = (.error e, u') ∧
        e = .resourceConsumptionRefused "Flask") ∧
      ∃ e t', perform (run {} "flask" [.custom { formula := "(" }] oiled) dryTable =
        (.error e, t') ∧ ((∃ f, e = .formula f) ∨ e = .resourceConsumptionRefused "Flask") := by
  have early := (run_fails_before_dice {} "flask" [.attack {}, .damage { index := .index 1 }] oiled
    dryTable).1 (.damageIndexOutOfRange "Flask" 1 1) dryTable rfl rfl
  let bad : RollRequest := .custom { formula := "(" }
  have prepared : Prepared "flask" [bad] oiled dryTable.actor dryTable.host
      ⟨flask, none, [.request bad]⟩ dryTable.host := ⟨rfl, rfl, rfl, rfl⟩
  obtain ⟨steps, commits, runs⟩ := (run_fails_before_dice {} "flask" [bad] oiled dryTable).2 _ _
    prepared
  have failed : perform (run {} "flask" [bad] oiled) dryTable =
      (.error (.formula .unexpectedEnd), dryTable) := by cbv
  have stuck : perform ((Preparation.context ⟨flask, none, [.request bad]⟩ {} oiled
      dryTable.actor).resolveStep (.request bad) {}) dryTable.source =
      (.error (.formula .unexpectedEnd), dryTable.source) := by cbv
  refine ⟨early.2, _, _, prepared, ⟨.request bad, List.mem_singleton_self _, _, _, stuck, ?_⟩,
    ⟨_, dryTable, rfl, ?_⟩, _, _, failed, ?_⟩
  · exact steps _ (Or.inl (List.mem_singleton_self _)) _ _ _ _ stuck
  · exact commits dryTable dryTable _ rfl rfl
  · exact runs _ _ failed

end Tabletop
