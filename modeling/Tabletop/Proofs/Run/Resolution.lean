import Tabletop.Proofs.Dice.Rolls
import Tabletop.Run.Step
/-!
# What a step comes down to

There are ten kinds of requests, and damage lines besides, but only three kinds of work: an entry
that needs no dice, several rolls of one formula, and a damage roll. `resolveStep_eq` sorts the
steps into them, and `perform_resolveStep_ok_iff` says what a step comes to if it succeeds.
-/

namespace Tabletop

/-- The requests that roll one formula several times. -/
inductive RollKind where
  | attack
  | check
  | custom

/-- The entry of a request that rolls one formula several times. -/
def RollKind.entry : RollKind → RollEntry → ResultEntry
  | attack => .attack
  | check => .check
  | custom => .custom

/-- The entries that need no dice. -/
def ResultEntry.IsQuiet : ResultEntry → Prop
  | .saveDc _ => True
  | .text _ => True
  | .flavor _ => True
  | _ => False

/-- The work of one step. -/
inductive Task where
  /-- An entry that needs no dice, or none. -/
  | quiet (entry : Option ResultEntry)
  /-- Several rolls of one formula, with what it refers to. -/
  | rolls (kind : RollKind) (title : Option String) (roll : MultiRoll) (bindings : Bindings)
  /-- A damage line, if the step is one that it can be found for. -/
  | line (roll : Except RollError (Option DamageRoll))
  /-- The other formula, if the item has one. -/
  | other (roll : Option DamageRoll)

namespace RunContext

variable (c : RunContext)

/-! ### Damage lines -/

/-- The item whose line a step rolls. -/
def lineItem? : Target → Option Item
  | .primary => some c.item
  | .ammo => c.ammo

/-- The versatile formula of an item, if a step asks for it and there is one. -/
def lineVersatile? (step : DamageStep) (item : Item) : Option String :=
  if step.versatile then item.versatileFormula? else none

/-- What is written for a damage line. -/
def lineText (step : DamageStep) (item : Item) (part : DamagePart) : String :=
  Text.trim ((lineVersatile? step item).getD part.formula)

/-- What the formula of a damage line can refer to. -/
def lineBindings (step : DamageStep) (item : Item) : Bindings :=
  c.bindings.insert "mod" (toString (c.damageModifier item (some step.index)))

/-- The formula of a damage line; only the first one of the item that is used grows. -/
def lineFormula (step : DamageStep) (item : Item) (part : DamagePart) : Except RollError String :=
  if step.target = .primary ∧ step.index = 0 then
    (c.firstLineFormula (lineText step item part) (c.lineBindings step item)).mapError .formula
  else .ok (lineText step item part)

/-- The roll of a damage line with its formula. -/
def lineRoll (step : DamageStep) (item : Item) (part : DamagePart) (formula : String) :
    DamageRoll where
  item := item
  formula := formula
  bindings := c.lineBindings step item
  damageType := part.damageType
  versatile := (lineVersatile? step item).isSome
  crit := step.crit
  title := if part.damageType.any DamageType.isHealing then none else some "Damage"
  context := step.context <|>
    if step.target = .primary then item.presets.bind (·.damageContext? step.index) else none

/-- A damage line that is there is rolled unless nothing is written in it. -/
theorem damageRoll?_eq (step : DamageStep) :
    c.damageRoll? step =
      match c.lineItem? step.target with
      | none => .ok none
      | some item =>
        match item.damage.parts[step.index]? with
        | none =>
          .error (.damageIndexOutOfRange item.name step.index item.damage.parts.length)
        | some part =>
          if lineText step item part = "" then .ok none
          else (c.lineFormula step item part).map fun formula =>
            some (c.lineRoll step item part formula) := by
  obtain ⟨index, versatile, crit, context, whose⟩ := step
  unfold damageRoll?
  simp only
  split
  · rename_i missing
    have missing : c.lineItem? whose = none := by
      cases whose
      · cases missing
      · exact missing
    rw [missing]
  rename_i item found
  have found : c.lineItem? whose = some item := by
    cases whose
    · exact found
    · exact found
  simp only [found]
  cases item.damage.parts[index]? with
  | none => rfl
  | some part =>
    simp only [decide_eq_true_eq, Bool.and_eq_true]
    by_cases blank : lineText ⟨index, versatile, crit, context, whose⟩ item part = ""
    · rw [if_pos blank]
      exact if_pos blank
    · rw [if_neg blank]
      refine (if_neg blank).trans ?_
      unfold lineFormula
      by_cases first : whose = .primary ∧ index = 0
      · rw [if_pos first, if_pos first]
        exact bind_pure_comp _ _
      · rw [if_neg first, if_neg first]
        rfl

theorem damageRoll?_eq_some_iff {c : RunContext} {step : DamageStep} {roll : DamageRoll} :
    c.damageRoll? step = .ok (some roll) ↔
      ∃ item part formula, c.lineItem? step.target = some item ∧
        item.damage.parts[step.index]? = some part ∧ lineText step item part ≠ "" ∧
        c.lineFormula step item part = .ok formula ∧ roll = c.lineRoll step item part formula := by
  rw [damageRoll?_eq]
  constructor
  · intro h
    cases found : c.lineItem? step.target with
    | none =>
      rw [found] at h
      cases h
    | some item =>
      simp only [found] at h
      cases line : item.damage.parts[step.index]? with
      | none =>
        rw [line] at h
        cases h
      | some part =>
        simp only [line] at h
        by_cases blank : lineText step item part = ""
        · rw [if_pos blank] at h
          cases h
        · rw [if_neg blank] at h
          cases grown : c.lineFormula step item part with
          | error e =>
            rw [grown] at h
            cases h
          | ok formula =>
            rw [grown] at h
            cases h
            exact ⟨item, part, formula, rfl, line, blank, grown, rfl⟩
  · rintro ⟨item, part, formula, found, line, written, grown, rfl⟩
    simp only [found, line, if_neg written, grown]
    rfl

/-- The damage line that is rolled once more after a critical hit. -/
def critExtraStep (index : Nat) : DamageStep := ⟨index, false, .never, none, .primary⟩

/-- The damage roll of a request for extra damage, whoever made it. -/
def critExtraRoll (index : Nat) : Except RollError (Option DamageRoll) := do
  Plan.checkIndex c.item index
  c.damageRoll? (critExtraStep index)

/-- The work that a step asks for. -/
def task : Step → Task
  | .damage step => .line (c.damageRoll? step)
  | .request (.attack args) =>
    .rolls .attack (c.rollTitle c.attackTitle) (c.attackRoll args).1 (c.attackRoll args).2
  | .request (.check args) =>
    .rolls .check (c.rollTitle (args.title.getD "Check")) (c.checkRoll args).1 (c.checkRoll args).2
  | .request (.custom args) => .rolls .custom args.title (customRoll args) c.bindings
  | .request (.damage _) => .quiet none
  | .request (.saveDc args) => .quiet (c.savingThrow? args)
  | .request .other => .other c.otherRoll?
  | .request (.text text) => .quiet (plainText? text)
  | .request (.flavor text) => .quiet (c.flavorText? text)
  | .request .description => .quiet (plainText? c.item.description)
  | .request (.critExtra index) =>
    match index.map UInt64.toNat <|> c.item.crit.extraDamage with
    | none => .quiet none
    | some index => .line (c.critExtraRoll index)

theorem task_critExtra (index : Option UInt64) :
    c.task (.request (.critExtra index)) =
      match index.map UInt64.toNat <|> c.item.crit.extraDamage with
      | none => .quiet none
      | some index => .line (c.critExtraRoll index) := rfl

theorem task_critExtra_cases (index : Option UInt64) :
    c.task (.request (.critExtra index)) = .quiet none ∨
      ∃ i, c.task (.request (.critExtra index)) = .line (c.critExtraRoll i) := by
  rw [task_critExtra]
  cases index.map UInt64.toNat <|> c.item.crit.extraDamage with
  | none => exact Or.inl rfl
  | some i => exact Or.inr ⟨i, rfl⟩

variable {c}

/-- Only attacks, checks and custom rolls roll one formula several times. -/
theorem task_eq_rolls {step : Step} {kind : RollKind} {title : Option String} {m : MultiRoll}
    {b : Bindings} (h : c.task step = .rolls kind title m b) :
    match kind with
    | .attack => ∃ args, step = .request (.attack args) ∧ m = (c.attackRoll args).1
    | .check => ∃ args, step = .request (.check args) ∧ m = (c.checkRoll args).1
    | .custom => ∃ args, step = .request (.custom args) ∧ m = customRoll args := by
  cases step with
  | damage step => cases h
  | request request =>
    cases request with
    | attack args =>
      cases h
      exact ⟨args, rfl, rfl⟩
    | check args =>
      cases h
      exact ⟨args, rfl, rfl⟩
    | custom args =>
      cases h
      exact ⟨args, rfl, rfl⟩
    | critExtra index =>
      rcases c.task_critExtra_cases index with same | ⟨i, same⟩ <;> cases same.symm.trans h
    | _ => cases h

/-- Only damage lines and extra damage roll a line. -/
theorem task_eq_line {step : Step} {roll : DamageRoll}
    (h : c.task step = .line (.ok (some roll))) :
    ∃ line, c.damageRoll? line = .ok (some roll) ∧ (step = .damage line ∨
      ∃ index i, step = .request (.critExtra index) ∧ line = critExtraStep i) := by
  cases step with
  | damage line => exact ⟨line, Task.line.inj h, Or.inl rfl⟩
  | request request =>
    cases request with
    | critExtra index =>
      rcases c.task_critExtra_cases index with same | ⟨i, same⟩
      · cases same.symm.trans h
      · obtain ⟨u, -, found⟩ := bind_eq_ok_iff.1 (Task.line.inj (same.symm.trans h))
        exact ⟨critExtraStep i, found, Or.inr ⟨index, i, rfl, rfl⟩⟩
    | _ => cases h

theorem task_eq_other {step : Step} {roll : DamageRoll} (h : c.task step = .other (some roll)) :
    step = .request .other ∧ c.otherRoll? = some roll := by
  cases step with
  | damage step => cases h
  | request request =>
    cases request with
    | other => exact ⟨rfl, Task.other.inj h⟩
    | critExtra index =>
      rcases c.task_critExtra_cases index with same | ⟨i, same⟩ <;> cases same.symm.trans h
    | _ => cases h

theorem plainText?_isQuiet {text : String} {entry : ResultEntry}
    (h : plainText? text = some entry) : entry.IsQuiet := by
  unfold plainText? at h
  split at h
  · cases h
  · cases h
    exact trivial

/-- What needs no dice is a difficulty or a text. -/
theorem task_eq_quiet {step : Step} {entry : ResultEntry}
    (h : c.task step = .quiet (some entry)) : entry.IsQuiet := by
  cases step with
  | damage step => cases h
  | request request =>
    cases request with
    | saveDc args =>
      have made : c.savingThrow? args = some entry := Task.quiet.inj h
      obtain ⟨ability, -, made⟩ := Option.bind_eq_some_iff.1 made
      cases made
      exact trivial
    | text text => exact plainText?_isQuiet (Task.quiet.inj h)
    | description => exact plainText?_isQuiet (Task.quiet.inj h)
    | flavor text =>
      obtain ⟨text, -, rfl⟩ := Option.map_eq_some_iff.1 (Task.quiet.inj h)
      exact trivial
    | critExtra index =>
      rcases c.task_critExtra_cases index with same | ⟨i, same⟩ <;> cases same.symm.trans h
    | _ => cases h

variable (c) {σ : Type} [RandomSource σ]

/-- Does the work of a step. -/
def work : Task → Progress → Resolving σ (Option ResultEntry × Progress)
  | .quiet entry, p => return (entry, p)
  | .rolls kind title roll bindings, p => do
    let outcome ← rolling (roll.resolve bindings)
    return (some (kind.entry ⟨title, outcome⟩), p.recordOutcome outcome)
  | .line roll, p => do
    match ← roll with
    | none => return (none, p.markDamage)
    | some roll =>
      let (entry, p) ← c.resolveRoll roll p.markDamage
      return (some (.damage entry), p)
  | .other none, p => return (none, p)
  | .other (some roll), p => do
    let (entry, p) ← c.resolveRoll roll p
    return (some (.other entry), p)

theorem resolveOther_eq (p : Progress) :
    c.resolveOther (σ := σ) p = c.work (.other c.otherRoll?) p := by
  unfold resolveOther
  cases c.otherRoll? with
  | none => rfl
  | some roll => rfl

theorem resolveCritExtra_eq (index : Option UInt64) (p : Progress) :
    c.resolveCritExtra (σ := σ) (index.map UInt64.toNat) p =
      c.work (c.task (.request (.critExtra index))) p := by
  rw [task_critExtra]
  unfold resolveCritExtra
  cases index.map UInt64.toNat <|> c.item.crit.extraDamage with
  | none => rfl
  | some index =>
    change (do liftM (Plan.checkIndex c.item index); c.resolveDamage (critExtraStep index) p) =
      c.work (.line (c.critExtraRoll index)) p
    unfold critExtraRoll
    cases Plan.checkIndex c.item index with
    | error e => rfl
    | ok u => rfl

theorem resolveStep_eq (step : Step) (p : Progress) :
    c.resolveStep (σ := σ) step p = c.work (c.task step) p := by
  cases step with
  | damage step => rfl
  | request request =>
    cases request with
    | other => exact c.resolveOther_eq p
    | critExtra index => exact c.resolveCritExtra_eq index p
    | attack args => rfl
    | check args => rfl
    | damage args => rfl
    | saveDc args => rfl
    | custom args => rfl
    | text text => rfl
    | flavor text => rfl
    | description => rfl

end RunContext

/-! ## Work that succeeded -/

variable {σ : Type}

theorem perform_rolling_ok_iff {α : Type} {x : Rolling σ α} {s s' : σ} {a : α} :
    perform (rolling x) s = (.ok a, s') ↔ perform x s = (.ok a, s') := by
  rw [perform_rolling]
  rcases perform x s with ⟨e | b, u⟩
  · constructor
    · rintro ⟨⟩
    · rintro ⟨⟩
  · constructor
    · rintro ⟨⟩
      rfl
    · rintro ⟨⟩
      rfl

theorem perform_maximum_ok_iff {text : String} {b : Bindings} {s s' : σ} {r : EvaluatedRoll} :
    perform (maximum text b) s = (.ok r, s') ↔ maximize text b = .ok r ∧ s' = s := by
  change ((maximize text b).mapError RollError.formula, s) = _ ↔ _
  cases maximize text b with
  | error e =>
    constructor
    · rintro ⟨⟩
    · rintro ⟨⟨⟩, -⟩
  | ok r' =>
    constructor
    · rintro ⟨⟩
      exact ⟨rfl, rfl⟩
    · rintro ⟨⟨⟩, rfl⟩
      rfl

/-- All rolls of an entry, the critical one last. -/
def DamageEntry.rolls (d : DamageEntry) : List EvaluatedRoll := d.base :: d.crit.toList

/-- Notes rolls down. -/
def Progress.recordRolls (p : Progress) (rolls : List EvaluatedRoll) : Progress :=
  { p with dicePool := p.dicePool ++ rolls }

namespace RunContext

variable (c : RunContext)

/-- The entry of a damage roll. -/
def damageEntry (roll : DamageRoll) (base : EvaluatedRoll) (maxBase : Int)
    (crit : Option EvaluatedRoll) (maxCrit : Option Int) : DamageEntry where
  labels := .arrange c.config roll.title roll.context (damageText roll.damageType roll.versatile)
  damageType := roll.damageType
  versatile := roll.versatile
  base := base
  crit := crit
  critLabel := crit.map fun _ => c.config.critString
  maxBase := maxBase
  maxCrit := maxCrit

/-- The highest total of critical dice, if there are any. -/
def critMaximum : Option EvaluatedRoll → Resolving σ (Option Int)
  | none => pure none
  | some crit => do
    let highest ← maximum crit.formula ∅
    return some highest.total

theorem perform_critMaximum {crit : Option EvaluatedRoll} {s s' : σ} {maxCrit : Option Int}
    (h : perform (critMaximum crit) s = (.ok maxCrit, s')) : s' = s := by
  cases crit with
  | none =>
    cases h
    rfl
  | some crit =>
    obtain ⟨highest, u, found, h⟩ := perform_bind_ok_iff.1 h
    cases h
    exact (perform_maximum_ok_iff.1 found).2

variable [RandomSource σ]

/-- The critical dice of a roll that may be critical. -/
def critDice (roll : DamageRoll) (isCrit : Bool) (base : EvaluatedRoll) (maxBase : Int) :
    Resolving σ (Option EvaluatedRoll) :=
  if c.wantsCrit isCrit roll.crit then c.resolveCrit roll.item base maxBase else pure none

/-- The rolls of a damage line as a plain sequence. -/
theorem resolveRoll_eq (roll : DamageRoll) (p : Progress) :
    c.resolveRoll (σ := σ) roll p = do
      let base ← rolling (RandomSource.evaluate roll.formula roll.bindings)
      let highest ← maximum base.formula ∅
      let crit ← c.critDice roll p.isCrit base highest.total
      let maxCrit ← critMaximum crit
      return (c.damageEntry roll base highest.total crit maxCrit,
        p.recordRolls (base :: crit.toList)) := by
  unfold resolveRoll critDice
  refine bind_congr fun base => bind_congr fun highest => ?_
  have unmoved : (p.recordRoll base).isCrit = p.isCrit := rfl
  rw [unmoved]
  by_cases wants : c.wantsCrit p.isCrit roll.crit = true
  · rw [if_pos wants, if_pos wants]
    refine bind_congr fun crit => ?_
    cases crit with
    | none => rfl
    | some crit =>
      have recorded : (p.recordRoll base).recordRoll crit = p.recordRolls [base, crit] := by
        simp [Progress.recordRolls, Progress.recordRoll]
      simp only [critMaximum, bind_assoc, pure_bind, Option.elim_some, recorded]
      rfl
  · rw [if_neg wants, if_neg wants]
    rfl

/-- A damage roll that succeeded: `u` is the source between the base dice and the critical ones. -/
structure RolledDamage (roll : DamageRoll) (p : Progress) (s u : σ) (d : DamageEntry)
    (p' : Progress) (s' : σ) : Prop where
  base : perform (RandomSource.evaluate roll.formula roll.bindings) s = (.ok d.base, u)
  maxBase : ∃ highest, maximize d.base.formula ∅ = .ok highest ∧ d.maxBase = highest.total
  crit : perform (c.critDice roll p.isCrit d.base d.maxBase) u = (.ok d.crit, s')
  maxCrit : perform (critMaximum d.crit) s' = (.ok d.maxCrit, s')
  entry : d = c.damageEntry roll d.base d.maxBase d.crit d.maxCrit
  after : p' = p.recordRolls d.rolls

theorem perform_resolveRoll_ok_iff {roll : DamageRoll} {p p' : Progress} {s s' : σ}
    {d : DamageEntry} :
    perform (c.resolveRoll roll p) s = (.ok (d, p'), s') ↔
      ∃ u, c.RolledDamage roll p s u d p' s' := by
  rw [resolveRoll_eq]
  constructor
  · intro h
    obtain ⟨base, u, hbase, rest⟩ := perform_bind_ok_iff.1 h
    obtain ⟨highest, u', hmax, tail⟩ := perform_bind_ok_iff.1 rest
    obtain ⟨crit, v, hcrit, last⟩ := perform_bind_ok_iff.1 tail
    obtain ⟨maxCrit, w, hmaxCrit, made⟩ := perform_bind_ok_iff.1 last
    obtain ⟨maximal, rfl⟩ := perform_maximum_ok_iff.1 hmax
    obtain rfl := perform_critMaximum hmaxCrit
    cases made
    exact ⟨u', perform_rolling_ok_iff.1 hbase, ⟨highest, maximal, rfl⟩, hcrit, hmaxCrit, rfl, rfl⟩
  · rintro ⟨u, base, ⟨highest, maximal, same⟩, crit, maxCrit, entry, rfl⟩
    refine perform_bind_ok_iff.2 ⟨d.base, u, perform_rolling_ok_iff.2 base, ?_⟩
    refine perform_bind_ok_iff.2 ⟨highest, u, perform_maximum_ok_iff.2 ⟨maximal, rfl⟩, ?_⟩
    rw [← same]
    refine perform_bind_ok_iff.2 ⟨d.crit, s', crit, ?_⟩
    refine perform_bind_ok_iff.2 ⟨d.maxCrit, s', maxCrit, ?_⟩
    rw [← entry]
    rfl

/-- Work that succeeded, with the entry that it led to and what it left behind. -/
inductive Worked (p : Progress) (s : σ) : Task → Option ResultEntry → Progress → σ → Prop
  | quiet (entry : Option ResultEntry) : Worked p s (.quiet entry) entry p s
  | rolls {kind : RollKind} {title : Option String} {m : MultiRoll} {b : Bindings}
      {o : MultiRollOutcome} {s' : σ} (rolled : perform (m.resolve b) s = (.ok o, s')) :
      Worked p s (.rolls kind title m b) (some (kind.entry ⟨title, o⟩)) (p.recordOutcome o) s'
  | noLine : Worked p s (.line (.ok none)) none p.markDamage s
  | line {roll : DamageRoll} {d : DamageEntry} {p' : Progress} {u s' : σ}
      (rolled : c.RolledDamage roll p.markDamage s u d p' s') :
      Worked p s (.line (.ok (some roll))) (some (.damage d)) p' s'
  | noOther : Worked p s (.other none) none p s
  | other {roll : DamageRoll} {d : DamageEntry} {p' : Progress} {u s' : σ}
      (rolled : c.RolledDamage roll p s u d p' s') :
      Worked p s (.other (some roll)) (some (.other d)) p' s'

theorem perform_work_ok_iff {task : Task} {p p' : Progress} {s s' : σ}
    {entry : Option ResultEntry} :
    perform (c.work task p) s = (.ok (entry, p'), s') ↔ c.Worked p s task entry p' s' := by
  constructor
  · intro h
    cases task with
    | quiet entry =>
      cases h
      exact .quiet entry
    | rolls kind title m b =>
      obtain ⟨o, u, rolled, made⟩ := perform_bind_ok_iff.1 h
      cases made
      exact .rolls (perform_rolling_ok_iff.1 rolled)
    | line roll =>
      obtain ⟨roll, u, found, rest⟩ := perform_bind_ok_iff.1 h
      cases found
      cases roll with
      | none =>
        cases rest
        exact .noLine
      | some roll =>
        obtain ⟨⟨d, q⟩, v, rolled, made⟩ := perform_bind_ok_iff.1 rest
        obtain ⟨u, rolled⟩ := (perform_resolveRoll_ok_iff c).1 rolled
        cases made
        exact .line rolled
    | other roll =>
      cases roll with
      | none =>
        cases h
        exact .noOther
      | some roll =>
        obtain ⟨⟨d, q⟩, v, rolled, made⟩ := perform_bind_ok_iff.1 h
        obtain ⟨u, rolled⟩ := (perform_resolveRoll_ok_iff c).1 rolled
        cases made
        exact .other rolled
  · intro h
    cases h with
    | quiet entry => rfl
    | rolls rolled => exact perform_bind_ok_iff.2 ⟨_, _, perform_rolling_ok_iff.2 rolled, rfl⟩
    | noLine => rfl
    | line rolled =>
      refine perform_bind_ok_iff.2 ⟨_, s, rfl, ?_⟩
      exact perform_bind_ok_iff.2 ⟨_, _, (perform_resolveRoll_ok_iff c).2 ⟨_, rolled⟩, rfl⟩
    | noOther => rfl
    | other rolled =>
      exact perform_bind_ok_iff.2 ⟨_, _, (perform_resolveRoll_ok_iff c).2 ⟨_, rolled⟩, rfl⟩

/-- What a step that succeeds comes to. -/
theorem perform_resolveStep_ok_iff {step : Step} {p p' : Progress} {s s' : σ}
    {entry : Option ResultEntry} :
    perform (c.resolveStep step p) s = (.ok (entry, p'), s') ↔
      c.Worked p s (c.task step) entry p' s' := by
  rw [resolveStep_eq, perform_work_ok_iff]

end RunContext

end Tabletop
