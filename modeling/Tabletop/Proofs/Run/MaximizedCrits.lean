import Mathlib
import Tabletop.Proofs.Run.Maxima
/-!
# Critical dice that are maximized

Where critical dice show their maximum, a damage roll asks the source for its base dice only. The
maximum is reported with the text that it was read from last; read once more, this text has the same
maximum, and so the critical dice are as high as the entry says that they can be.
-/

namespace Tabletop

open Playing

/-- Critical dice that come again if the text that they are reported with is maximized. -/
def DamageEntry.CritRepeats (d : DamageEntry) : Prop :=
  ∀ crit ∈ d.crit, maximize crit.formula ∅ = .ok crit ∧ d.maxCrit = some crit.total

/-- Damage of a visit, and the damage roll that its step asks for. -/
def Visit.RolledBy (v : Visit) (c : RunContext) (roll : DamageRoll) (d : DamageEntry) : Prop :=
  c.task v.step = .line (.ok (some roll)) ∧ v.entry = some (.damage d) ∨
    c.task v.step = .other (some roll) ∧ v.entry = some (.other d)

namespace RunContext

variable {c : RunContext} {σ : Type} [RandomSource σ]

/-- Critical dice that are wanted, at their maximum. -/
theorem perform_critDice_of_maximized {roll : DamageRoll} {isCrit : Bool}
    {base crit : EvaluatedRoll} {maxBase : Int} {formula : String}
    (wants : c.wantsCrit isCrit roll.crit = true)
    (written : c.critFormula? roll.item base.formula = .ok (some formula))
    (maximizes : c.critBehavior.maximizes = true)
    (shown : maximize (critText c.critBehavior formula base maxBase) ∅ = .ok crit) (s : σ) :
    perform (c.critDice roll isCrit base maxBase) s = (.ok (some crit), s) := by
  rw [critDice, if_pos wants]
  refine perform_bind_ok_iff.2 ⟨some formula, s, ?_, ?_⟩
  · rw [perform_lift, written]
    rfl
  · have rolled : perform (some <$> maximum (critText c.critBehavior formula base maxBase) ∅) s =
        (.ok (some crit), s) :=
      perform_bind_ok_iff.2 ⟨crit, s, perform_maximum_ok_iff.2 ⟨shown, rfl⟩, rfl⟩
    dsimp only
    rw [rollCrit_eq]
    generalize c.critBehavior = behavior at maximizes rolled ⊢
    cases behavior with
    | none => cases maximizes
    | bonusDiceOnly => cases maximizes
    | maximizeBase => exact rolled
    | maximizeBoth => exact rolled

theorem RolledDamage.critRepeats {roll : DamageRoll} {p p' : Progress} {s u s' : σ}
    {d : DamageEntry} (h : c.RolledDamage roll p s u d p' s')
    (maximizes : c.critBehavior.maximizes = true) : d.CritRepeats := by
  intro crit made
  have rolled := h.crit
  have cap := h.maxCrit
  rw [Option.mem_def.1 made] at rolled cap
  obtain ⟨formula, -, rolled⟩ := rollCrit_of_critDice rolled
  obtain ⟨shown, -⟩ := maximize_of_rollCrit maximizes rolled
  have again := maximize_again shown
  obtain ⟨highest, v, found, same⟩ := perform_bind_ok_iff.1 cap
  obtain ⟨top, -⟩ := perform_maximum_ok_iff.1 found
  cases again.symm.trans top
  exact ⟨again, (Except.ok.inj (Prod.mk.inj same).1).symm⟩

/-- The source is where the base dice left it. -/
theorem RolledDamage.source_eq {roll : DamageRoll} {p p' : Progress} {s u s' : σ}
    {d : DamageEntry} (h : c.RolledDamage roll p s u d p' s')
    (maximizes : c.critBehavior.maximizes = true) : s' = u := by
  have evaluated := evaluations_of_critDice h.crit
  rw [if_pos maximizes] at evaluated
  cases evaluated
  rfl

/-- Damage of a visit is what came of a damage roll. -/
theorem exists_rolledDamage {v : Visit} {s s' : σ} {d : DamageEntry}
    (visited : perform (c.resolveStep v.step v.before) s = (.ok (v.entry, v.after), s'))
    (made : v.Rolled d) :
    ∃ roll p u, v.RolledBy c roll d ∧ c.RolledDamage roll p s u d v.after s' := by
  obtain ⟨step, p, entry, p'⟩ := v
  have worked : c.Worked p s (c.task step) entry p' s' := (perform_resolveStep_ok_iff c).1 visited
  generalize asked : c.task step = task at worked
  cases worked with
  | quiet entry =>
    obtain rfl | rfl := made
    · exact (task_eq_quiet asked).elim
    · exact (task_eq_quiet asked).elim
  | @rolls kind title m b o s' rolled =>
    exact absurd made (Visit.not_rolled (v := ⟨step, p, some (kind.entry ⟨title, o⟩), _⟩) rfl d)
  | noLine => rcases made with made | made <;> cases made
  | line rolled =>
    rcases made with made | made
    · cases made
      exact ⟨_, _, _, Or.inl ⟨asked, rfl⟩, rolled⟩
    · cases made
  | noOther => rcases made with made | made <;> cases made
  | other rolled =>
    rcases made with made | made
    · cases made
    · cases made
      exact ⟨_, _, _, Or.inr ⟨asked, rfl⟩, rolled⟩

end RunContext

/-- The visits of a run that succeeds are those of its plan, and then at most the extra damage. -/
theorem visits_of_run {σ η : Type} [RandomSource σ] [RollHost η] {config : PipelineConfig}
    {itemId : String} {requests : List RollRequest} {params : RollParams} {t t' : Table σ η}
    {r : CompositeResult} (h : perform (run config itemId requests params) t = (.ok r, t')) :
    ∃ p host declared added q, Prepared itemId requests params t.actor t.host p host ∧
      (p.context config params t.actor).Resolves {} t.source (declared ++ added) q t'.source ∧
      declared.map (·.step) = p.steps ∧ (∀ v ∈ added, v.step = .request (.critExtra none)) ∧
      r.entries = (declared ++ added).filterMap (·.entry) := by
  cases perform_run_eq_ok_iff.1 h with
  | @intro p host host' source entries q outcome actor prepared resolved settled =>
    obtain ⟨declared, added, q', u, first, second, steps, extra, rfl⟩ :=
      RunContext.perform_resolvePlan_ok_iff.1 resolved
    refine ⟨p, host, declared, added, q, prepared, first.append second, steps, ?_, rfl⟩
    intro v mem
    have step : v.step ∈ (p.context config params t.actor).addedSteps q' :=
      extra ▸ List.mem_map_of_mem mem
    unfold RunContext.addedSteps at step
    split at step
    · exact List.mem_singleton.1 step
    · cases step

/-- Maximized critical dice of a run that succeeds. At each visit that rolls damage the source is
asked for the base dice, and the visits behind it find the source as this one evaluation left it.
The critical dice are what comes of their reported text when it is read and maximized once more with
nothing bound, and the greatest total reported for them is their own. -/
theorem run_crits_repeat {σ η : Type} [RandomSource σ] [RollHost η] (config : PipelineConfig)
    (itemId : String) (requests : List RollRequest) (params : RollParams) (t t' : Table σ η)
    (r : CompositeResult)
    (maximizes : (params.critBehavior.getD config.critBehavior).maximizes = true)
    (h : perform (run config itemId requests params) t = (.ok r, t')) :
    ∃ p host visits q,
      Prepared itemId requests params t.actor t.host p host ∧
      (p.context config params t.actor).Resolves {} t.source visits q t'.source ∧
      r.entries = visits.filterMap (·.entry) ∧
      ∀ earlier v later, visits = earlier ++ v :: later → ∀ d, v.Rolled d →
        (∃ s s' text b,
          (p.context config params t.actor).Resolves {} t.source earlier v.before s ∧
          perform (RandomSource.evaluate text b) s = (.ok d.base, s') ∧
          (p.context config params t.actor).Resolves v.after s' later q t'.source) ∧
        ∀ crit ∈ d.crit, maximize crit.formula ∅ = .ok crit ∧ d.maxCrit = some crit.total := by
  obtain ⟨p, host, declared, added, q, prepared, resolves, -, -, entries⟩ := visits_of_run h
  refine ⟨p, host, declared ++ added, q, prepared, resolves, entries, ?_⟩
  intro earlier v later split_at d rolled
  rw [split_at] at resolves
  obtain ⟨s, s', before, visited, behind⟩ := resolves.around
  obtain ⟨roll, q', u, -, rolled⟩ := RunContext.exists_rolledDamage visited rolled
  obtain rfl := rolled.source_eq maximizes
  exact ⟨⟨s, s', _, _, before, rolled.base, behind⟩, rolled.critRepeats maximizes⟩

/-! ## A duel -/

/-- A weapon whose critical dice come with bonus dice. -/
def axe (bonus : String) : Item where
  id := "axe"
  name := "Axe"
  kind := .weapon
  damage := ⟨[⟨"1d6 + 2", none⟩], none⟩
  crit := { bonusDice := some bonus }

/-- A table where the die of the axe shows a given face. -/
def duel (bonus : String) (face : Nat) : Table ScriptedSource StaticHost where
  actor := { id := "ogre", name := "Ogre", items := [axe bonus] }
  source := .ofFaces [face]
  host := {}

def axeLine : DamageStep := ⟨0, false, .always, none, .primary⟩

/-- The damage of the axe, which is always critical. -/
def chopping (bonus : String) : Preparation := ⟨axe bonus, none, [.damage axeLine]⟩

def chopper (bonus : String) : RunContext :=
  (chopping bonus).context { critBehavior := .maximizeBoth } {} (duel bonus 1).actor

def axeRoll (bonus : String) : DamageRoll :=
  (chopper bonus).lineRoll axeLine (axe bonus) ⟨"1d6 + 2", none⟩ "1d6 + 2"

def axeTerms : Formula := [.dice ⟨1, 6, []⟩, .operator .add, .number 2]

def chop (face : Nat) : EvaluatedRoll := ⟨"1d6 + 2", face + 2, [⟨6, [⟨face, true⟩]⟩]⟩

def chopped (bonus : String) (face : Nat) (crit : EvaluatedRoll) : DamageEntry :=
  (chopper bonus).damageEntry (axeRoll bonus) (chop face) 8 (some crit) (some crit.total)

/-- The text of the critical dice, which make up for what the face falls short of six. -/
def chopText (bonus : String) (face : Nat) : String :=
  RunContext.critText .maximizeBoth (Formula.compose ["1d6", bonus]) (chop face) 8

theorem parse_axe : Formula.parse "1d6 + 2" = .ok axeTerms :=
  Formula.parse_render_of_sound (f := axeTerms) rfl (by decide)

theorem maximize_axe : maximize "1d6 + 2" ∅ = .ok (chop 6) := by
  rw [maximize_eq parse_axe]
  exact eq_ok_of_toOption (by decide +kernel)

theorem chop_task (bonus : String) :
    (chopper bonus).task (.damage axeLine) = .line (.ok (some (axeRoll bonus))) := by
  have text : RunContext.lineText axeLine (axe bonus) ⟨"1d6 + 2", none⟩ = "1d6 + 2" := by
    show Text.trim "1d6 + 2" = "1d6 + 2"
    decide
  have grown (b : Bindings) : (chopper bonus).firstLineFormula "1d6 + 2" b = .ok "1d6 + 2" := rfl
  refine congrArg Task.line (RunContext.damageRoll?_eq_some_iff.2
    ⟨axe bonus, ⟨"1d6 + 2", none⟩, "1d6 + 2", rfl, rfl, ?_, ?_, rfl⟩)
  · rw [text]
    decide
  · rw [RunContext.lineFormula, if_pos ⟨rfl, rfl⟩, text, grown]
    rfl

theorem chop_critFormula (bonus : String) :
    (chopper bonus).critFormula? (axe bonus) "1d6 + 2" =
      .ok (some (Formula.compose ["1d6", bonus])) :=
  RunContext.critFormula?_eq parse_axe

/-- The face of the script is all that a critical hit with the axe takes. -/
theorem chop_visited {bonus : String} {face : Nat} {crit : EvaluatedRoll}
    (rolled : perform (Formula.evaluate axeTerms ∅) (⟨[face]⟩ : Script) = (.ok (chop face), ⟨[]⟩))
    (shown : maximize (chopText bonus face) ∅ = .ok crit) :
    perform ((chopper bonus).resolveStep (.damage axeLine) {}) (duel bonus face).source =
      (.ok (some (.damage (chopped bonus face crit)),
        ({} : Progress).markDamage.recordRolls [chop face, crit]), ⟨⟨[]⟩, 1⟩) := by
  have base : perform (RandomSource.evaluate "1d6 + 2" (axeRoll bonus).bindings)
      (duel bonus face).source = (.ok (chop face), ⟨⟨[]⟩, 1⟩) := by
    have unbound (b : Bindings) :
        (Formula.evaluate axeTerms b : Rolling Script _) = Formula.evaluate axeTerms ∅ := rfl
    rw [perform_evaluate_scripted parse_axe, unbound]
    have script : (duel bonus face).source.script = ⟨[face]⟩ := rfl
    rw [script, rolled]
    rfl
  refine (RunContext.perform_resolveStep_ok_iff _).2 ?_
  rw [chop_task]
  refine .line ⟨base, ⟨chop 6, maximize_axe, rfl⟩, ?_, ?_, rfl, rfl⟩
  · have behavior : (chopper bonus).critBehavior = .maximizeBoth := rfl
    rw [chopText, ← behavior] at shown
    exact RunContext.perform_critDice_of_maximized rfl (chop_critFormula bonus) rfl shown _
  · exact perform_bind_ok_iff.2
      ⟨crit, _, perform_maximum_ok_iff.2 ⟨maximize_again shown, rfl⟩, rfl⟩

theorem chop_completed {bonus : String} {face : Nat} {crit : EvaluatedRoll}
    (rolled : perform (Formula.evaluate axeTerms ∅) (⟨[face]⟩ : Script) = (.ok (chop face), ⟨[]⟩))
    (shown : maximize (chopText bonus face) ∅ = .ok crit) :
    ∃ r t', perform (run { critBehavior := .maximizeBoth } "axe" [.damage { crit := .always }] {})
        (duel bonus face) = (.ok r, t') ∧
      r.entries = [.damage (chopped bonus face crit)] ∧ t'.source = ⟨⟨[]⟩, 1⟩ := by
  have prepared : Prepared "axe" [.damage { crit := .always }] {} (duel bonus face).actor
      (duel bonus face).host (chopping bonus) (duel bonus face).host := ⟨rfl, rfl, rfl, rfl⟩
  have resolves : (chopper bonus).Resolves {} (duel bonus face).source
      [⟨_, {}, some (.damage (chopped bonus face crit)), _⟩] _ ⟨⟨[]⟩, 1⟩ :=
    .cons (chop_visited rolled shown) (.nil _ _)
  have resolved := RunContext.perform_resolvePlan_ok_iff.2
    ⟨_, [], _, _, resolves, .nil _ _, rfl, rfl, rfl⟩
  have done := perform_run_eq_ok_iff.2 (.intro prepared resolved rfl)
  exact ⟨_, _, done, rfl, rfl⟩

theorem four_rolled :
    perform (Formula.evaluate axeTerms ∅) (⟨[4]⟩ : Script) = (.ok (chop 4), ⟨[]⟩) :=
  Prod.ext (eq_ok_of_toOption (by decide +kernel)) rfl

/-- The critical dice at their highest, with bonus dice and two points that a four falls short. -/
def fourCrit : EvaluatedRoll :=
  ⟨"1d6 + 1d4 + 0 + 2", 12, [⟨6, [⟨6, true⟩]⟩, ⟨4, [⟨4, true⟩]⟩]⟩

theorem maximize_four : maximize (chopText "1d4 + @mod" 4) ∅ = .ok fourCrit := by
  have written : chopText "1d4 + @mod" 4 = "1d6 + 1d4 + @mod + 2" := by decide
  have parsed : Formula.parse "1d6 + 1d4 + @mod + 2" =
      .ok [.dice ⟨1, 6, []⟩, .operator .add, .dice ⟨1, 4, []⟩, .operator .add, .variable "mod",
        .operator .add, .number 2] := by cbv
  rw [written, maximize_eq parsed]
  exact eq_ok_of_toOption (by decide +kernel)

/-- The axe falls short of its maximum by two, and its critical dice make up for it. Their text, with
the variable replaced, comes to the same again. -/
theorem duel_crit_repeats :
    ∃ r t', perform (run { critBehavior := .maximizeBoth } "axe" [.damage { crit := .always }] {})
        (duel "1d4 + @mod" 4) = (.ok r, t') ∧
      r.entries = [.damage (chopped "1d4 + @mod" 4 fourCrit)] ∧ t'.source = ⟨⟨[]⟩, 1⟩ ∧
      maximize "1d6 + 1d4 + 0 + 2" ∅ = .ok fourCrit ∧
      (chopped "1d4 + @mod" 4 fourCrit).maxCrit = some fourCrit.total := by
  obtain ⟨r, t', done, entries, source⟩ := chop_completed four_rolled maximize_four
  obtain ⟨p, host, visits, q, -, -, made, repeats⟩ :=
    run_crits_repeat { critBehavior := .maximizeBoth } "axe" [.damage { crit := .always }] {}
      (duel "1d4 + @mod" 4) t' r rfl done
  have entry : .damage (chopped "1d4 + @mod" 4 fourCrit) ∈ visits.filterMap (·.entry) := by
    rw [← made, entries]
    exact List.mem_singleton_self _
  obtain ⟨v, mem, rolled⟩ := List.mem_filterMap.1 entry
  obtain ⟨earlier, later, split_at⟩ := List.append_of_mem mem
  obtain ⟨-, again⟩ := repeats earlier v later split_at _ (Or.inl rolled)
  obtain ⟨shown, top⟩ := again fourCrit rfl
  exact ⟨r, t', done, entries, source, shown, top⟩

end Tabletop
