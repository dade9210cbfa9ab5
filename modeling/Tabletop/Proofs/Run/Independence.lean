import Mathlib
import Tabletop.Proofs.Run.Phases
import Tabletop.Proofs.Run.Trace
import Tabletop.Proofs.Sheet.Bindings
/-!
# What the dice do not depend on

Two runs whose parameters differ only in what they spend and in what they show roll the same dice,
as long as neither of them is refused. The parameters that may differ are read by the preflight, by
the settlement and by the result, and by no step of the plan; and as the counters are spent behind
the last step, all formulas read them as they were before the run.
-/

namespace Tabletop

open Playing

/-- Parameters that agree in all that is read while dice are rolled. They may differ in the charges,
the quantity and the recharge that are spent, in the template, the title and the properties. -/
structure RollParams.SameDice (a b : RollParams) : Prop where
  adv : a.adv = b.adv
  disadv : a.disadv = b.disadv
  slotLevel : a.slotLevel = b.slotLevel
  versatile : a.versatile = b.versatile
  critBehavior : a.critBehavior = b.critBehavior
  useLinkedResource : a.consume.useLinkedResource = b.consume.useLinkedResource

/-! ## Steps -/

namespace RunContext

variable (c : RunContext)

/-- The same context with other parameters. -/
def withParams (params : RollParams) : RunContext := { c with params }

variable {c} {params : RollParams} (same : params.SameDice c.params)
include same

theorem selectionOf_withParams (adv disadv : Option UInt32) :
    (c.withParams params).selectionOf adv disadv = c.selectionOf adv disadv := by
  unfold selectionOf withParams
  rw [same.adv, same.disadv]

theorem critBehavior_withParams : (c.withParams params).critBehavior = c.critBehavior := by
  unfold critBehavior withParams
  rw [same.critBehavior]

theorem attackRoll_withParams (args : AttackArgs) :
    (c.withParams params).attackRoll args = c.attackRoll args := by
  unfold attackRoll
  rw [selectionOf_withParams same]
  rfl

theorem checkRoll_withParams (args : CheckArgs) :
    (c.withParams params).checkRoll args = c.checkRoll args := by
  unfold checkRoll
  rw [selectionOf_withParams same]
  rfl

theorem task_withParams (step : Step) : (c.withParams params).task step = c.task step := by
  cases step with
  | damage step => rfl
  | request request =>
    cases request with
    | attack args =>
      simp only [task, attackRoll_withParams same]
      rfl
    | check args =>
      simp only [task, checkRoll_withParams same]
      rfl
    | _ => rfl

variable {σ : Type} [RandomSource σ]

theorem critDice_withParams (roll : DamageRoll) (isCrit : Bool) (base : EvaluatedRoll)
    (maxBase : Int) :
    (c.withParams params).critDice (σ := σ) roll isCrit base maxBase =
      c.critDice roll isCrit base maxBase := by
  unfold critDice wantsCrit resolveCrit
  rw [critBehavior_withParams same]
  rfl

theorem resolveRoll_withParams (roll : DamageRoll) (p : Progress) :
    (c.withParams params).resolveRoll (σ := σ) roll p = c.resolveRoll roll p := by
  rw [resolveRoll_eq, resolveRoll_eq]
  simp only [critDice_withParams same]
  rfl

theorem work_withParams (task : Task) (p : Progress) :
    (c.withParams params).work (σ := σ) task p = c.work task p := by
  unfold work
  simp only [resolveRoll_withParams same]

theorem resolveStep_withParams (step : Step) (p : Progress) :
    (c.withParams params).resolveStep (σ := σ) step p = c.resolveStep step p := by
  rw [resolveStep_eq, resolveStep_eq, task_withParams same, work_withParams same]

theorem resolveSteps_withParams (steps : List Step) (p : Progress) :
    (c.withParams params).resolveSteps (σ := σ) steps p = c.resolveSteps steps p := by
  induction steps generalizing p with
  | nil => rfl
  | cons step steps ih =>
    unfold resolveSteps
    rw [resolveStep_withParams same]
    refine bind_congr fun r => ?_
    simp only [ih]

/-- Whatever the plan, its dice do not depend on the parameters that may differ. -/
theorem resolvePlan_withParams (steps : List Step) :
    (c.withParams params).resolvePlan (σ := σ) steps = c.resolvePlan steps := by
  have extra : ∀ p, (c.withParams params).resolveCritExtra (σ := σ) none p =
      c.resolveCritExtra none p := fun p =>
    resolveStep_withParams same (.request (.critExtra none)) p
  unfold resolvePlan
  rw [resolveSteps_withParams same]
  simp only [extra]
  rfl

end RunContext

/-! ## Preparations -/

namespace RollParams.SameDice

variable {a b : RollParams} (same : a.SameDice b) {item : Item} {actor : Actor}
include same

theorem ammo?_eq : item.ammo? actor a = item.ammo? actor b := by
  unfold Item.ammo?
  rw [same.useLinkedResource]

theorem castUnasked?_level :
    (item.castUnasked? a).map (·.level) = (item.castUnasked? b).map (·.level) := by
  unfold Item.castUnasked?
  rw [same.slotLevel]
  by_cases spell : item.kind = .spell
  · rw [if_pos spell, if_pos spell]
    cases b.slotLevel with
    | none => rfl
    | some level => rfl
  · rw [if_neg spell, if_neg spell]

/-- An item is cast at the same level, whether or not its template is placed. -/
theorem castWith_level {η : Type} [RollHost η] {host host₁ host₂ : η}
    {cast₁ cast₂ : Option SpellCast} (first : castWith item a actor host = (.ok cast₁, host₁))
    (second : castWith item b actor host = (.ok cast₂, host₂)) :
    cast₁.map (·.level) = cast₂.map (·.level) := by
  have asks : item.asksSlot a = item.asksSlot b := by
    unfold Item.asksSlot
    rw [same.slotLevel]
  unfold castWith at first second
  by_cases asked : item.asksSlot b = true
  · rw [if_pos (asks.trans asked)] at first
    rw [if_pos asked] at second
    cases first.symm.trans second
    rfl
  · rw [if_neg (asks ▸ asked)] at first
    rw [if_neg asked] at second
    cases first
    cases second
    exact same.castUnasked?_level

/-- The steps of both runs read the same but for the parameters. -/
theorem ofRun_eq (config : PipelineConfig) {cast₁ cast₂ : Option SpellCast}
    (level : cast₁.map (·.level) = cast₂.map (·.level)) :
    RunContext.ofRun config a actor item cast₁ =
      (RunContext.ofRun config b actor item cast₂).withParams a := by
  unfold RunContext.ofRun RunContext.withParams
  rw [same.ammo?_eq, level]

/-- Both runs prepare the same item, cast at the same level, and the same steps. -/
theorem prepared {η : Type} [RollHost η] {itemId : String} {requests : List RollRequest}
    {host host₁ host₂ : η} {p₁ p₂ : Preparation}
    (first : Prepared itemId requests a actor host p₁ host₁)
    (second : Prepared itemId requests b actor host p₂ host₂) :
    p₁.item = p₂.item ∧ p₁.cast.map (·.level) = p₂.cast.map (·.level) ∧ p₁.steps = p₂.steps := by
  have item : p₁.item = p₂.item := Option.some.inj (first.found.symm.trans second.found)
  have configured := first.configured
  have planned := first.planned
  rw [item] at configured planned
  rw [same.ammo?_eq, same.versatile] at planned
  exact ⟨item, same.castWith_level configured second.configured,
    Except.ok.inj (planned.symm.trans second.planned)⟩

end RollParams.SameDice

/-- The level that a result shows is that of the cast. -/
theorem RunContext.slotLevel_result (c : RunContext) (cast : Option SpellCast)
    (entries : List ResultEntry) (p : Progress) (outcome : ConsumeOutcome) :
    (c.result cast entries p outcome).slotLevel =
      (cast.map (·.level)).filter (· ≠ c.item.level) := by
  unfold result
  cases cast with
  | none => rfl
  | some cast =>
    by_cases own : cast.level = c.item.level
    · simp [Option.filter, own]
    · simp [Option.filter, own]

/-- A plan that was resolved is a trace from the first progress to the last one. -/
theorem RunContext.resolves_of_resolvePlan {c : RunContext} {σ : Type} [RandomSource σ] {s s' : σ}
    {steps : List Step} {entries : List ResultEntry} {p : Progress}
    (h : perform (c.resolvePlan steps) s = (.ok (entries, p), s')) :
    ∃ visits, c.Resolves {} s visits p s' ∧ entries = visits.filterMap (·.entry) := by
  obtain ⟨declared, added, q, u, first, second, -, -, rfl⟩ := perform_resolvePlan_ok_iff.1 h
  exact ⟨declared ++ added, first.append second, rfl⟩

/-! ## Runs -/

variable {σ η : Type} [RandomSource σ] [RollHost η]

/-- What is spent and what is shown do not influence the dice. Two runs that succeed, with
parameters that agree in all else, have the same entries and rolls and leave the same source; and
whatever is spent, each formula of theirs reads the actor and the item as they were before. -/
theorem run_dice_independent (config : PipelineConfig) (itemId : String)
    (requests : List RollRequest) {a b : RollParams} (same : a.SameDice b) {t t₁ t₂ : Table σ η}
    {r₁ r₂ : CompositeResult} (first : perform (run config itemId requests a) t = (.ok r₁, t₁))
    (second : perform (run config itemId requests b) t = (.ok r₂, t₂)) :
    r₁.entries = r₂.entries ∧ r₁.dicePool = r₂.dicePool ∧ r₁.isCrit = r₂.isCrit ∧
      r₁.slotLevel = r₂.slotLevel ∧ t₁.source = t₂.source ∧
      ∃ item cast visits q, t.actor.item? itemId = some item ∧
        (RunContext.ofRun config a t.actor item cast).Resolves {} t.source visits q t₁.source ∧
        r₁.entries = visits.filterMap (·.entry) ∧ r₁.dicePool = q.dicePool ∧
        ∀ v ∈ visits, ∀ read,
          ((RunContext.ofRun config a t.actor item cast).task v.step).bindings? = some read →
            ReadsSheet t.actor item (cast.map (·.level)) read := by
  cases perform_run_eq_ok_iff.1 first with
  | @intro p₁ host₁ _ source entries q _ _ prepared₁ resolved₁ _ =>
  cases perform_run_eq_ok_iff.1 second with
  | @intro p₂ host₂ _ source' entries' q' _ _ prepared₂ resolved₂ _ =>
  obtain ⟨item, level, steps⟩ := same.prepared prepared₁ prepared₂
  -- the steps of both runs read the same but for the parameters, which no step reads
  have context : p₁.context config a t.actor = (p₂.context config b t.actor).withParams a := by
    unfold Preparation.context
    rw [item]
    exact same.ofRun_eq config level
  have alike : perform ((p₁.context config a t.actor).resolvePlan p₁.steps) t.source =
      perform ((p₂.context config b t.actor).resolvePlan p₂.steps) t.source := by
    rw [context, steps]
    exact congrArg (perform · t.source) (RunContext.resolvePlan_withParams same p₂.steps)
  obtain ⟨rolled, sources⟩ := Prod.mk.inj (resolved₁.symm.trans (alike.trans resolved₂))
  obtain ⟨rfl, rfl⟩ := Prod.mk.inj (Except.ok.inj rolled)
  have slots : p₁.item.level = p₂.item.level := congrArg (·.level) item
  obtain ⟨visits, resolves, listed⟩ := RunContext.resolves_of_resolvePlan resolved₁
  refine ⟨rfl, rfl, rfl, ?_, sources, p₁.item, p₁.cast, visits, q, prepared₁.found, resolves,
    listed, rfl, ?_⟩
  · rw [RunContext.slotLevel_result, RunContext.slotLevel_result, level]
    exact congrArg (fun own => (p₂.cast.map (·.level)).filter (· ≠ own)) slots
  · intro v _ read reads
    exact (RunContext.sameDotted_task _ reads).readsSheet

/-- The last one of its kind, which is gone once it is used up. -/
def lastPotion : Item where
  id := "potion"
  name := "Potion"
  kind := .consumable
  uses := { autoDestroy := true }

def cellar : Table ScriptedSource StaticHost where
  actor := { id := "taster", name := "Taster", items := [lastPotion] }
  source := .ofFaces []
  host := {}

/-- Asks how many there are. -/
def stocktaking : CustomArgs := { formula := "@item.quantity" }

def drink : RollParams := { consume := { useQuantity := true } }

def look : RollParams := { useTemplate := true, title := some "Label", properties := true }

def one : EvaluatedRoll := ⟨"1", 1, []⟩

def counted : MultiRollOutcome := (RunContext.customRoll stocktaking).outcomeOf .all [one]

theorem parse_quantity : Formula.parse "@item.quantity" = .ok [.variable "item.quantity"] := by cbv

def stocktake : Preparation := ⟨lastPotion, none, [.request (.custom stocktaking)]⟩

/-- The count is one, whatever the parameters are. -/
theorem count_resolved (params : RollParams) :
    perform ((stocktake.context {} params cellar.actor).resolvePlan stocktake.steps)
      cellar.source =
        (.ok ([.custom ⟨none, counted⟩], ({} : Progress).recordOutcome counted), ⟨⟨[]⟩, 1⟩) := by
  let c := stocktake.context {} params cellar.actor
  let bound := Bindings.nest cellar.actor.rollBindings "item" (lastPotion.rollBindings none)
  have composed : (RunContext.customRoll stocktaking).composed = "@item.quantity" := by
    decide +kernel
  have count : (RunContext.customRoll stocktaking).rollCount = 1 := by decide +kernel
  have rolled : perform ((RunContext.customRoll stocktaking).resolve bound) cellar.source =
      (.ok counted, ⟨⟨[]⟩, 1⟩) := by
    refine perform_resolve_ok_iff.2 ⟨[.variable "item.quantity"], [one], ?_, ?_, rfl⟩
    · rw [composed]
      exact parse_quantity
    · rw [composed, count]
      refine perform_evaluateTimes_succ_ok_iff.2 ⟨one, ⟨⟨[]⟩, 1⟩, [], ?_, rfl, rfl⟩
      exact perform_evaluate_scripted_ok parse_quantity (by decide +kernel) (by decide +kernel)
  have visited : perform (c.resolveStep (.request (.custom stocktaking)) {}) cellar.source =
      (.ok (some (.custom ⟨none, counted⟩), ({} : Progress).recordOutcome counted),
        ⟨⟨[]⟩, 1⟩) := c.perform_resolveStep_ok_iff.2 (.rolls rolled)
  exact RunContext.perform_resolvePlan_ok_iff.2
    ⟨_, _, _, _, .cons visited (.nil _ _), .nil _ _, rfl, rfl, rfl⟩

theorem drink_prepared : Prepared "potion" [.custom stocktaking] drink cellar.actor cellar.host
    stocktake cellar.host := ⟨rfl, rfl, rfl, rfl⟩

theorem look_prepared : Prepared "potion" [.custom stocktaking] look cellar.actor cellar.host
    stocktake cellar.host := ⟨rfl, rfl, rfl, rfl⟩

/-- Whoever drinks the last potion counts it as whoever only looks at it. -/
theorem potion_dice_independent :
    ∃ r₁ t₁ r₂ t₂,
      perform (run {} "potion" [.custom stocktaking] drink) cellar = (.ok r₁, t₁) ∧
      perform (run {} "potion" [.custom stocktaking] look) cellar = (.ok r₂, t₂) ∧
      r₁.consumption = .destroy ∧ t₁.actor.items = [] ∧ t₂.actor.items = [lastPotion] ∧
      r₁.dicePool = [one] ∧ r₁.entries = r₂.entries ∧ r₁.dicePool = r₂.dicePool ∧
      t₁.source = t₂.source := by
  have drunk := perform_run_eq_ok_iff.2 (.intro drink_prepared (count_resolved drink) rfl)
  have looked := perform_run_eq_ok_iff.2 (.intro look_prepared (count_resolved look) rfl)
  have same : drink.SameDice look := ⟨rfl, rfl, rfl, rfl, rfl, rfl⟩
  obtain ⟨entries, pool, -, -, source, -⟩ := run_dice_independent _ _ _ same drunk looked
  exact ⟨_, _, _, _, drunk, looked, rfl, rfl, rfl, rfl, entries, pool, source⟩

end Tabletop
