import Mathlib
import Tabletop.Proofs.Run.Effect
import Tabletop.Proofs.Run.Independence
import Tabletop.Proofs.Run.MaximizedCrits
/-!
# Spells that are cast at another level

A spell is cast at the level that the run asks for, at level zero as a cantrip, or at the level of
the slot that is chosen. What is reported is told apart from the spell's own level by an inequality,
and the dice grow by a difference that is never negative. Above the spell's own level both agree.
Below it the level is reported as well, and the first damage line is rolled as it is written.
-/

namespace Tabletop

open Playing

/-! ## The level of a cast -/

/-- The level at which a spell is cast, from what was chosen if someone is asked. -/
inductive Item.CastAt (item : Item) (params : RollParams) (actor : Actor) :
    Option SlotChoice → Nat → Prop
  | given {choice : Option SlotChoice} {level : Nat} (asked : params.slotLevel = some level) :
      CastAt item params actor choice level
  | cantrip {choice : Option SlotChoice} (unset : params.slotLevel = none)
      (cantrip : item.level = 0) : CastAt item params actor choice 0
  | slot {choice : SlotChoice} {level : Nat} (unset : params.slotLevel = none)
      (leveled : item.level ≠ 0) (chosen : choice.level = .level level) :
      CastAt item params actor (some choice) level
  | pact {choice : SlotChoice} (unset : params.slotLevel = none) (leveled : item.level ≠ 0)
      (chosen : choice.level = .pact) :
      CastAt item params actor (some choice) actor.spells.pact.level

section

variable {η : Type} [RollHost η] {item : Item} {params : RollParams} {actor : Actor}
  {host host' : η} {cast : Option SpellCast}

theorem cast_eq_none (other : item.kind ≠ .spell)
    (h : castWith item params actor host = (.ok cast, host')) : cast = none := by
  have unasked : ¬item.asksSlot params = true := fun asks => other (Item.asksSlot_iff.1 asks).1
  rw [castWith, if_neg unasked, Item.castUnasked?, if_neg other] at h
  cases h
  rfl

theorem castAt_of_castChosen {choice : SlotChoice} {made : SpellCast}
    (unset : params.slotLevel = none) (leveled : item.level ≠ 0)
    (h : item.castChosen actor choice = .ok made) :
    item.CastAt params actor (some choice) made.level := by
  unfold Item.castChosen at h
  simp only at h
  split at h
  · cases h
  · cases h
    cases chosen : choice.level with
    | level n => exact .slot unset leveled chosen
    | pact => exact .pact unset leveled chosen

/-- A spell that is cast is cast at a level that is asked for, a cantrip's, or a slot's. -/
theorem castAt_of_castWith (spell : item.kind = .spell)
    (h : castWith item params actor host = (.ok cast, host')) :
    ∃ made, cast = some made ∧
      item.CastAt params actor (RollHost.choose item host).1 made.level := by
  unfold castWith at h
  split at h
  · next asks =>
    obtain ⟨-, leveled, unset⟩ := Item.asksSlot_iff.1 asks
    obtain ⟨made, -⟩ := Prod.mk.inj h
    cases answered : (RollHost.choose item host).1 with
    | none =>
      rw [answered] at made
      cases made
    | some choice =>
      simp only [answered] at made
      cases chosen : item.castChosen actor choice with
      | error e =>
        rw [chosen] at made
        cases made
      | ok found =>
        rw [chosen] at made
        cases made
        exact ⟨found, rfl, castAt_of_castChosen unset (Nat.ne_of_gt leveled) chosen⟩
  · next unasked =>
    obtain ⟨made, -⟩ := Prod.mk.inj h
    rw [Item.castUnasked?, if_pos spell] at made
    cases given : params.slotLevel with
    | some level =>
      rw [given] at made
      cases made
      exact ⟨_, rfl, .given given⟩
    | none =>
      rw [given] at made
      cases made
      have cantrip : item.level = 0 := Nat.eq_zero_of_not_pos fun leveled =>
        unasked (Item.asksSlot_iff.2 ⟨spell, leveled, given⟩)
      exact ⟨_, rfl, .cantrip given cantrip⟩

end

/-! ## The first damage line -/

/-- The damage line that a step rolls, if it rolls one. -/
def Step.line? (item : Item) : Step → Option DamageStep
  | .damage line => some line
  | .request (.critExtra index) =>
    (index.map UInt64.toNat <|> item.crit.extraDamage).map RunContext.critExtraStep
  | _ => none

namespace RunContext

/-- What is rolled for the first damage line once it has grown: an attack adds the damage bonus of
its action. -/
def withActionBonus (c : RunContext) (grown : String) : String :=
  (actionBonus? c.actor c.item.actionType true).elim grown fun bonus =>
    Formula.compose [grown, bonus.2]

theorem firstLineFormula_eq (c : RunContext) (formula : String) (b : Bindings) :
    c.firstLineFormula formula b =
      (Scaling.scale formula c.item.scaling.formula c.scalingSteps b).map c.withActionBonus := by
  unfold firstLineFormula withActionBonus
  cases Scaling.scale formula c.item.scaling.formula c.scalingSteps b with
  | error e => rfl
  | ok grown =>
    cases actionBonus? c.actor c.item.actionType true with
    | none => rfl
    | some bonus => rfl

variable {c : RunContext} {σ : Type} [RandomSource σ]

/-- The base dice of the first damage line, rolled from a text that it has grown to. -/
def RollsGrown (c : RunContext) (σ : Type) [RandomSource σ] (line : DamageStep) (grown : String)
    (base : EvaluatedRoll) : Prop :=
  ∃ s u : σ, perform (RandomSource.evaluate (c.withActionBonus grown)
    (c.lineBindings line c.item)) s = (.ok base, u)

theorem damageRoll?_of_task {step : Step} {line : DamageStep} {roll : DamageRoll}
    (asked : c.task step = .line (.ok (some roll))) (found : step.line? c.item = some line) :
    c.damageRoll? line = .ok (some roll) := by
  cases step with
  | damage step =>
    cases found
    exact Task.line.inj asked
  | request request =>
    cases request with
    | critExtra index =>
      obtain ⟨i, first, rfl⟩ := Option.map_eq_some_iff.1 found
      rw [task_critExtra, first] at asked
      obtain ⟨u, -, made⟩ := bind_eq_ok_iff.1 (Task.line.inj asked)
      exact made
    | _ => cases found

/-- The first damage line grows by the steps of the run. -/
theorem exists_grown {v : Visit} {s s' : σ} {line : DamageStep} {d : DamageEntry}
    (visited : perform (c.resolveStep v.step v.before) s = (.ok (v.entry, v.after), s'))
    (rolls : v.step.line? c.item = some line) (own : line.target = .primary)
    (first : line.index = 0) (made : v.entry = some (.damage d)) :
    ∃ part grown, c.item.damage.parts[0]? = some part ∧
      Scaling.scale (lineText line c.item part) c.item.scaling.formula c.scalingSteps
        (c.lineBindings line c.item) = .ok grown ∧ c.RollsGrown σ line grown d.base := by
  obtain ⟨roll, p, u, ⟨asked, -⟩ | ⟨-, other⟩, rolled⟩ := exists_rolledDamage visited (Or.inl made)
  · obtain ⟨item, part, formula, whose, there, -, written, rfl⟩ :=
      damageRoll?_eq_some_iff.1 (damageRoll?_of_task asked rolls)
    rw [own] at whose
    cases whose
    rw [first] at there
    rw [lineFormula, if_pos ⟨own, first⟩, mapError_eq_ok_iff, firstLineFormula_eq] at written
    cases grown : Scaling.scale (lineText line c.item part) c.item.scaling.formula c.scalingSteps
        (c.lineBindings line c.item) with
    | error e =>
      rw [grown] at written
      cases written
    | ok text =>
      rw [grown] at written
      cases written
      exact ⟨part, text, there, grown, s, u, rolled.base⟩
  · cases made.symm.trans other

theorem scalingSteps_of_level {level : Nat} (spell : c.item.kind = .spell)
    (scales : c.item.scaling.mode = .level) (cast : c.castLevel = some level) :
    c.scalingSteps = level - c.item.level := by
  rw [scalingSteps, if_pos spell, scales, cast]
  rfl

end RunContext

/-! ## Runs -/

variable {σ η : Type} [RandomSource σ] [RollHost η] {config : PipelineConfig} {itemId : String}
  {requests : List RollRequest} {params : RollParams} {t t' : Table σ η} {r : CompositeResult}

theorem slotLevel_of_run {p : Preparation} {host : η}
    (h : perform (run config itemId requests params) t = (.ok r, t'))
    (prepared : Prepared itemId requests params t.actor t.host p host) :
    r.slotLevel = (p.cast.map (·.level)).filter (· ≠ p.item.level) := by
  cases perform_run_eq_ok_iff.1 h with
  | intro prepared' =>
    cases (prepare_eq_ok_iff.2 prepared).symm.trans (prepare_eq_ok_iff.2 prepared')
    exact RunContext.slotLevel_result _ _ _ _ _

/-- A spell that is cast at another level than its own is reported with that level, and with no
level otherwise. If it grows with its slot and is cast above its own level, its first damage line
grows by the difference. In all other cases this line is rolled as it is written, also where the
spell is reported with a level below its own. -/
theorem run_upcasts (h : perform (run config itemId requests params) t = (.ok r, t')) :
    ∃ p host declared added q, Prepared itemId requests params t.actor t.host p host ∧
      (p.context config params t.actor).Resolves {} t.source (declared ++ added) q t'.source ∧
      declared.map (·.step) = p.steps ∧ (∀ v ∈ added, v.step = .request (.critExtra none)) ∧
      r.entries = (declared ++ added).filterMap (·.entry) ∧
      (p.item.kind ≠ .spell → r.slotLevel = none) ∧
      (p.item.kind = .spell → ∃ level,
        p.item.CastAt params t.actor (RollHost.choose p.item t.host).1 level ∧
        (∀ l, r.slotLevel = some l ↔ l = level ∧ l ≠ p.item.level) ∧
        (p.item.scaling.mode = .level → ∀ v ∈ declared ++ added, ∀ line d,
          v.step.line? p.item = some line → line.target = .primary → line.index = 0 →
          v.entry = some (.damage d) → ∃ part, p.item.damage.parts[0]? = some part ∧
            (∀ l, r.slotLevel = some l → p.item.level < l → ∃ grown,
              Scaling.scale (RunContext.lineText line p.item part) p.item.scaling.formula
                (l - p.item.level) ((p.context config params t.actor).lineBindings line p.item) =
                .ok grown ∧
              (p.context config params t.actor).RollsGrown σ line grown d.base) ∧
            ((∀ l, r.slotLevel = some l → l < p.item.level) →
              (p.context config params t.actor).RollsGrown σ line
                (RunContext.lineText line p.item part) d.base))) := by
  obtain ⟨p, host, declared, added, q, prepared, resolves, steps, extra, entries⟩ :=
    visits_of_run h
  have reported := slotLevel_of_run h prepared
  refine ⟨p, host, declared, added, q, prepared, resolves, steps, extra, entries,
    fun other => ?_, fun spell => ?_⟩
  · rw [reported, cast_eq_none other prepared.configured]
    rfl
  · obtain ⟨made, cast, level⟩ := castAt_of_castWith spell prepared.configured
    have shown (l : Nat) : r.slotLevel = some l ↔ l = made.level ∧ l ≠ p.item.level := by
      rw [reported, cast, Option.map_some, Option.filter_eq_some_iff, Option.some_inj,
        decide_eq_true_eq, eq_comm]
    refine ⟨made.level, level, shown, fun scales v mem line d rolls own first entry => ?_⟩
    obtain ⟨earlier, later, split_at⟩ := List.append_of_mem mem
    rw [split_at] at resolves
    obtain ⟨s, s', -, visited, -⟩ := resolves.around
    obtain ⟨part, grown, there, scaled, base⟩ :=
      RunContext.exists_grown visited rolls own first entry
    have grows : (p.context config params t.actor).scalingSteps = made.level - p.item.level :=
      RunContext.scalingSteps_of_level spell scales
        (congrArg (Option.map fun made : SpellCast => made.level) cast)
    rw [grows] at scaled
    refine ⟨part, there, fun l same above => ?_, fun below => ?_⟩
    · obtain ⟨rfl, -⟩ := (shown l).1 same
      exact ⟨grown, scaled, base⟩
    · have none_above : made.level ≤ p.item.level := by
        by_contra above
        have high := below made.level ((shown made.level).2 ⟨rfl, by omega⟩)
        omega
      rw [Nat.sub_eq_zero_of_le none_above] at scaled
      cases scaled
      exact base

/-! ## A ray -/

/-- A spell of the third level that grows by one die for each level above it. -/
def ray : Item where
  id := "ray"
  name := "Ray"
  kind := .spell
  level := 3
  damage := ⟨[⟨"2d6", none⟩], none⟩
  scaling := ⟨.level, "1d6"⟩

def rayTable : Table ScriptedSource StaticHost where
  actor := { id := "mage", name := "Mage", items := [ray] }
  source := .ofFaces [4, 5, 6, 1]
  host := {}

def rayLine : DamageStep := ⟨0, false, .auto, none, .primary⟩

def rayCast (level : Nat) : Preparation := ⟨ray, some ⟨level, none, false⟩, [.damage rayLine]⟩

def rayContext (level : Nat) : RunContext :=
  (rayCast level).context {} { slotLevel := some level } rayTable.actor

/-- The damage of the ray, from what is rolled and the highest that it can be. -/
def rayDamage (level : Nat) (text : String) (roll highest : EvaluatedRoll) : DamageEntry :=
  (rayContext level).damageEntry ((rayContext level).lineRoll rayLine ray ⟨"2d6", none⟩ text) roll
    highest.total none none

theorem ray_text : RunContext.lineText rayLine ray ⟨"2d6", none⟩ = "2d6" := by
  show Text.trim "2d6" = "2d6"
  decide

theorem ray_task {level : Nat} {text : String}
    (scaled : ∀ b, Scaling.scale "2d6" "1d6" (level - 3) b = .ok text) :
    (rayContext level).task (.damage rayLine) =
      .line (.ok (some ((rayContext level).lineRoll rayLine ray ⟨"2d6", none⟩ text))) := by
  refine congrArg Task.line (RunContext.damageRoll?_eq_some_iff.2
    ⟨ray, ⟨"2d6", none⟩, text, rfl, rfl, ?_, ?_, rfl⟩)
  · rw [ray_text]
    decide
  · rw [RunContext.lineFormula, if_pos ⟨rfl, rfl⟩, ray_text, RunContext.firstLineFormula_eq]
    have steps : (rayContext level).scalingSteps = level - 3 := rfl
    have source : (rayContext level).item.scaling.formula = "1d6" := rfl
    rw [steps, source, scaled]
    rfl

theorem ray_prepared (level : Nat) :
    Prepared "ray" [.damage {}] { slotLevel := some level } rayTable.actor rayTable.host
      (rayCast level) rayTable.host := ⟨rfl, rfl, rfl, rfl⟩

section

variable (level : Nat) {text : String} {roll highest : EvaluatedRoll} {left : ScriptedSource}
  (scaled : ∀ b, Scaling.scale "2d6" "1d6" (level - 3) b = .ok text)
  (rolled : ∀ b, perform (RandomSource.evaluate text b) rayTable.source = (.ok roll, left))
  (shown : maximize roll.formula ∅ = .ok highest)

include scaled rolled shown

theorem ray_visited :
    perform ((rayContext level).resolveStep (.damage rayLine) {}) rayTable.source =
      (.ok (some (.damage (rayDamage level text roll highest)),
        ({} : Progress).markDamage.recordRolls [roll]), left) := by
  refine (RunContext.perform_resolveStep_ok_iff _).2 ?_
  rw [ray_task scaled]
  exact .line ⟨rolled _, ⟨highest, shown, rfl⟩, rfl, rfl, rfl, rfl⟩

theorem ray_completed :
    ∃ r t', perform (run {} "ray" [.damage {}] { slotLevel := some level }) rayTable = (.ok r, t') ∧
      r.slotLevel = (some level).filter (· ≠ 3) ∧
      r.entries = [.damage (rayDamage level text roll highest)] := by
  have resolves : (rayContext level).Resolves {} rayTable.source
      [⟨_, {}, some (.damage (rayDamage level text roll highest)), _⟩] _ left :=
    .cons (ray_visited level scaled rolled shown) (.nil _ _)
  have resolved := RunContext.perform_resolvePlan_ok_iff.2
    ⟨_, [], _, _, resolves, .nil _ _, rfl, rfl, rfl⟩
  have done := perform_run_eq_ok_iff.2 (.intro (ray_prepared level) resolved rfl)
  exact ⟨_, _, done, slotLevel_of_run done (ray_prepared level), rfl⟩

end

/-- Six-sided dice that show the given faces. -/
def sixSided (text : String) (faces : List Nat) : EvaluatedRoll :=
  ⟨text, sumOf faces, [⟨6, faces.map (⟨·, true⟩)⟩]⟩

theorem parse_sixes : Formula.parse "2d6" = .ok [.dice ⟨2, 6, []⟩] :=
  Formula.parse_render_of_sound (f := [.dice ⟨2, 6, []⟩]) rfl (by decide)

theorem parse_moreSixes : Formula.parse "4d6" = .ok [.dice ⟨4, 6, []⟩] :=
  Formula.parse_render_of_sound (f := [.dice ⟨4, 6, []⟩]) rfl (by decide)

/-- Two levels above its own the ray grows by two steps, and rolls two dice more. -/
theorem ray_upcast :
    ∃ r t', perform (run {} "ray" [.damage {}] { slotLevel := some 5 }) rayTable = (.ok r, t') ∧
      r.slotLevel = some 5 ∧
      r.entries = [.damage (rayDamage 5 "4d6" (sixSided "4d6" [4, 5, 6, 1])
        (sixSided "4d6" [6, 6, 6, 6]))] ∧
      ray.CastAt { slotLevel := some 5 } rayTable.actor none 5 ∧
      Scaling.scale "2d6" "1d6" 2 ((rayContext 5).lineBindings rayLine ray) = .ok "4d6" ∧
      (rayContext 5).RollsGrown ScriptedSource rayLine "4d6" (sixSided "4d6" [4, 5, 6, 1]) := by
  have scaled (b : Bindings) : Scaling.scale "2d6" "1d6" (5 - 3) b = .ok "4d6" := by cbv
  have rolled (b : Bindings) : perform (RandomSource.evaluate "4d6" b) rayTable.source =
      (.ok (sixSided "4d6" [4, 5, 6, 1]), ⟨⟨[]⟩, 1⟩) := by
    have unbound : (Formula.evaluate [.dice ⟨4, 6, []⟩] b : Rolling Script _) =
        Formula.evaluate [.dice ⟨4, 6, []⟩] ∅ := rfl
    refine perform_evaluate_scripted_ok parse_moreSixes ?_ rfl
    rw [unbound]
    decide +kernel
  have shown : maximize "4d6" ∅ = .ok (sixSided "4d6" [6, 6, 6, 6]) := by
    rw [maximize_eq parse_moreSixes]
    exact eq_ok_of_toOption (by decide +kernel)
  obtain ⟨r, t', done, slot, entries⟩ := ray_completed 5 scaled rolled shown
  obtain ⟨p, host, declared, added, q, prepared, resolves, steps, -, -, -, spell⟩ :=
    run_upcasts done
  have same := (prepare_eq_ok_iff.2 prepared).symm.trans (prepare_eq_ok_iff.2 (ray_prepared 5))
  obtain rfl : p = rayCast 5 := Except.ok.inj (Prod.mk.inj same).1
  obtain ⟨level, cast, reported, grows⟩ := spell rfl
  obtain ⟨rfl, -⟩ := (reported 5).1 slot
  -- the only step that was planned is the damage, and its entry is the one that was rolled
  obtain ⟨v, rfl, step⟩ := List.map_eq_singleton_iff.1 steps
  have entry : v.entry = some (.damage (rayDamage 5 "4d6" (sixSided "4d6" [4, 5, 6, 1])
      (sixSided "4d6" [6, 6, 6, 6]))) := by
    cases resolves with
    | cons visited _ =>
      cases step
      have known := ray_visited 5 scaled rolled shown
      exact (Prod.mk.inj (Except.ok.inj (Prod.mk.inj (visited.symm.trans known)).1)).1
  obtain ⟨part, there, above, -⟩ :=
    grows rfl v List.mem_cons_self rayLine _ (by rw [step]; rfl) rfl rfl entry
  obtain rfl : part = ⟨"2d6", none⟩ := (Option.some.inj there).symm
  obtain ⟨grown, made, base⟩ := above 5 slot (by decide)
  have item : (rayCast 5).item = ray := rfl
  rw [item, ray_text] at made
  obtain rfl : grown = "4d6" := Except.ok.inj (made.symm.trans (scaled _))
  exact ⟨r, t', done, slot, entries, cast, made, base⟩

/-- Two levels below its own the ray is reported with the lower level, and keeps its dice. -/
theorem ray_downcast :
    ∃ r t', perform (run {} "ray" [.damage {}] { slotLevel := some 1 }) rayTable = (.ok r, t') ∧
      r.slotLevel = some 1 ∧ 1 < ray.level ∧
      r.entries =
        [.damage (rayDamage 1 "2d6" (sixSided "2d6" [4, 5]) (sixSided "2d6" [6, 6]))] := by
  have rolled (b : Bindings) : perform (RandomSource.evaluate "2d6" b) rayTable.source =
      (.ok (sixSided "2d6" [4, 5]), ⟨⟨[6, 1]⟩, 1⟩) := by
    have unbound : (Formula.evaluate [.dice ⟨2, 6, []⟩] b : Rolling Script _) =
        Formula.evaluate [.dice ⟨2, 6, []⟩] ∅ := rfl
    refine perform_evaluate_scripted_ok parse_sixes ?_ rfl
    rw [unbound]
    decide +kernel
  have shown : maximize "2d6" ∅ = .ok (sixSided "2d6" [6, 6]) := by
    rw [maximize_eq parse_sixes]
    exact eq_ok_of_toOption (by decide +kernel)
  obtain ⟨r, t', done, slot, entries⟩ := ray_completed 1 (fun _ => rfl) rolled shown
  exact ⟨r, t', done, slot, by decide, entries⟩

end Tabletop
