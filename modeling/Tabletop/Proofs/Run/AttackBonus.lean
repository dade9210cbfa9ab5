import Mathlib
import Tabletop.Proofs.Dice.AddedRolls
import Tabletop.Run.Basic
/-!
# Bonuses of attacks

A bonus reaches an attack from the item, from its owner, or from the request. The first two become
variables of the formula that is rolled, and the last one is written into it. Wherever a bonus comes
from the rolls come to the same, unless the bonus refers to something that is bound: its variables
are replaced only if it comes from the request.
-/

namespace Tabletop

/-! ## Results without texts of formulas -/

def RollEntry.bare (e : RollEntry) : RollEntry := { e with outcome := e.outcome.bare }

def DamageEntry.bare (e : DamageEntry) : DamageEntry :=
  { e with base := e.base.bare, crit := e.crit.map EvaluatedRoll.bare }

/-- The entry without the texts of its formulas. -/
def ResultEntry.bare : ResultEntry → ResultEntry
  | .attack roll => .attack roll.bare
  | .check roll => .check roll.bare
  | .custom roll => .custom roll.bare
  | .damage d => .damage d.bare
  | .other d => .other d.bare
  | quiet => quiet

/-- What steps left behind, without the texts of formulas. -/
def Progress.bare (p : Progress) : Progress :=
  { p with dicePool := p.dicePool.map EvaluatedRoll.bare }

/-- What a step comes to, the texts of formulas aside. -/
def bareStep {σ : Type} (r : Except RollError (Option ResultEntry × Progress) × σ) :
    Except RollError (Option ResultEntry × Progress) × σ :=
  (r.1.map fun step => (step.1.map ResultEntry.bare, step.2.bare), r.2)

theorem Progress.bare_recordOutcome (p : Progress) (o : MultiRollOutcome) :
    (p.recordOutcome o).bare = p.bare.recordOutcome o.bare := by
  have rolls : o.rolls.map EvaluatedRoll.bare = o.bare.rolls := by
    unfold MultiRollOutcome.rolls MultiRollOutcome.bare
    rw [List.map_map, List.map_map]
    rfl
  unfold bare recordOutcome
  rw [List.map_append, rolls]
  rfl

/-! ## What is rolled and added -/

/-- The twenty-sided die of an actor, as a term. -/
def Actor.d20Term (actor : Actor) : DiceTerm :=
  ⟨1, 20, if actor.traits.halflingLucky then [.rerollBelow 2] else []⟩

/-- The variable of an integer that is added; zero is not added. -/
def integerName (name : String) (value : Int) : List String := if value = 0 then [] else [name]

theorem eq_of_mem_integerName {name path : String} {value : Int}
    (h : path ∈ integerName name value) : path = name := by
  unfold integerName at h
  split at h
  · exact absurd h List.not_mem_nil
  · exact List.mem_singleton.1 h

namespace RollTerms

theorem terms_addInteger (r : RollTerms) (name : String) (value : Int) :
    (r.addInteger name value).terms = r.terms ++ (integerName name value).map ("@" ++ ·) := by
  unfold addInteger integerName
  split
  · exact (List.append_nil _).symm
  · rfl

theorem get?_addInteger_of_mem (r : RollTerms) {name path : String} {value : Int}
    (h : path ∈ integerName name value) :
    (r.addInteger name value).bindings.get? path = some (toString value) := by
  unfold integerName at h
  unfold addInteger
  by_cases zero : value = 0
  · rw [if_pos zero] at h
    exact absurd h List.not_mem_nil
  · rw [if_neg zero] at h ⊢
    obtain rfl := List.mem_singleton.1 h
    exact NameMap.get?_insert_self _ _ _

theorem get?_addInteger_of_ne (r : RollTerms) {name path : String} (other : path ≠ name)
    (value : Int) : (r.addInteger name value).bindings.get? path = r.bindings.get? path := by
  unfold addInteger
  split
  · rfl
  · exact NameMap.get?_insert_of_ne _ other _

end RollTerms

namespace RunContext

/-! ## Where bonuses come from -/

/-- The bonuses that are added to an attack: those of the item, of its ammunition, of the actor, and
of the request. -/
def attackBonuses (c : RunContext) (args : AttackArgs) : List String :=
  (c.item.attackBonus.filter isBonus).toList ++
    (((c.ammo.bind (·.attackBonus)).filter isBonus).toList ++
      (((actionBonus? c.actor c.item.actionType false).map (·.2)).toList ++
        (args.bonus.filter isBonus).toList))

/-- The same run with a bonus of its item, and with other things that formulas can refer to. -/
def withItemBonus (c : RunContext) (bonus : String) (bindings : Bindings) : RunContext :=
  { c with item := { c.item with attackBonus := some bonus }, bindings }

/-- The same run with bonuses of its actor, and with other things that formulas can refer to. -/
def withActorBonuses (c : RunContext) (bonuses : ActorBonuses) (bindings : Bindings) :
    RunContext :=
  { c with actor := { c.actor with bonuses }, bindings }

/-- Every number that comes up in the exact rolls of an attack is of one kind. -/
def AttackNumbersAre (kind : ℚ → Bool) (c : RunContext) (args : AttackArgs) (s : ScriptedSource) :
    Prop :=
  (perform ((c.attackRoll args).1.exactRolls kind (c.attackRoll args).2) s).1 ≠
    .error .notAdmitted

/-! ## The roll without bonuses -/

/-- The modifier of the ability that the item attacks with. -/
def attackModifier (c : RunContext) : Int :=
  ((attackAbility c.actor c.item).map c.actor.modifier).getD 0

/-- The variables that are added to the die of an attack besides bonuses. -/
def attackNames (c : RunContext) : List String :=
  integerName "abl" c.attackModifier ++ integerName "prof" c.attackProficiency

/-- What is added to the die of an attack besides bonuses. -/
def attackBase (c : RunContext) (b : Bindings) : RollTerms :=
  (RollTerms.addInteger ⟨[], b⟩ "abl" c.attackModifier).addInteger "prof" c.attackProficiency

/-- The multiple roll of an attack without bonuses. -/
def attackDie (c : RunContext) (args : AttackArgs) : MultiRoll :=
  { (c.attackRoll args).1 with terms := c.attackNames.map ("@" ++ ·) }

variable {c : RunContext} {args : AttackArgs} {t : String}

theorem terms_attackBase (c : RunContext) (b : Bindings) :
    (c.attackBase b).terms = c.attackNames.map ("@" ++ ·) := by
  rw [attackBase, RollTerms.terms_addInteger, RollTerms.terms_addInteger, attackNames,
    List.map_append, List.nil_append]

/-- The variables that are added besides bonuses are bound alike whatever else is. -/
theorem get?_attackBase {path : String} (mem : path ∈ c.attackNames) (b b' : Bindings) :
    (c.attackBase b).bindings.get? path = (c.attackBase b').bindings.get? path := by
  rcases List.mem_append.1 mem with modifier | proficiency
  · have other : path ≠ "prof" := by
      rw [eq_of_mem_integerName modifier]
      decide
    rw [attackBase, attackBase, RollTerms.get?_addInteger_of_ne _ other,
      RollTerms.get?_addInteger_of_ne _ other, RollTerms.get?_addInteger_of_mem _ modifier,
      RollTerms.get?_addInteger_of_mem _ modifier]
  · rw [attackBase, attackBase, RollTerms.get?_addInteger_of_mem _ proficiency,
      RollTerms.get?_addInteger_of_mem _ proficiency]

theorem filter_isBonus (adds : isBonus t = true) : (some t).filter isBonus = some t := by
  rw [Option.filter_some, if_pos adds]

theorem attackBonuses_eq_nil_iff : c.attackBonuses args = [] ↔
    c.item.attackBonus.filter isBonus = none ∧
    (c.ammo.bind (·.attackBonus)).filter isBonus = none ∧
    actionBonus? c.actor c.item.actionType false = none ∧ args.bonus.filter isBonus = none := by
  simp only [attackBonuses, List.append_eq_nil_iff, Option.toList_eq_nil_iff,
    Option.map_eq_none_iff]

/-- Without other bonuses, the one of a request is a text that is added. -/
theorem attackRoll_request (unset : c.attackBonuses args = []) (adds : isBonus t = true) :
    c.attackRoll { args with bonus := some t } =
      ((c.attackDie args).adding t, (c.attackBase c.bindings).bindings) := by
  obtain ⟨item, ammo, actor, -⟩ := attackBonuses_eq_nil_iff.1 unset
  have terms : c.attackTerms { args with bonus := some t } =
      ⟨(c.attackBase c.bindings).terms ++ [t], (c.attackBase c.bindings).bindings⟩ := by
    simp only [attackTerms, RollTerms.addBonus, item, ammo, actor, RollTerms.addText,
      filter_isBonus adds]
    rfl
  unfold attackRoll
  rw [terms, terms_attackBase]
  rfl

/-- Without other bonuses, the one of the item is a variable that is added. -/
theorem attackRoll_withItemBonus (unset : c.attackBonuses args = []) (adds : isBonus t = true)
    (b : Bindings) :
    (c.withItemBonus t b).attackRoll args =
      ((c.attackDie args).adding ("@" ++ "bonus"),
        (c.attackBase b).bindings.insert "bonus" t) := by
  obtain ⟨-, ammo, actor, request⟩ := attackBonuses_eq_nil_iff.1 unset
  have terms : (c.withItemBonus t b).attackTerms args =
      ⟨(c.attackBase b).terms ++ ["@" ++ "bonus"],
        (c.attackBase b).bindings.insert "bonus" t⟩ := by
    simp only [attackTerms, withItemBonus, RollTerms.addBonus, ammo, actor, RollTerms.addText,
      request, filter_isBonus adds, Option.toList_none, List.append_nil]
    rfl
  unfold attackRoll
  rw [terms, terms_attackBase]
  rfl

/-- Without other bonuses, the one of the actor is a variable that is added. -/
theorem attackRoll_withActorBonuses (unset : c.attackBonuses args = []) (adds : isBonus t = true)
    {action : ActionType} (acts : c.item.actionType = some action) {bonuses : ActorBonuses}
    (given : bonuses.attack? action = some t) (b : Bindings) :
    (c.withActorBonuses bonuses b).attackRoll args =
      ((c.attackDie args).adding ("@" ++ action.key),
        (c.attackBase b).bindings.insert action.key t) := by
  obtain ⟨item, ammo, -, request⟩ := attackBonuses_eq_nil_iff.1 unset
  have bonus : actionBonus? { c.actor with bonuses } (some action) false = some (action, t) := by
    simp [actionBonus?, given, adds]
  have terms : (c.withActorBonuses bonuses b).attackTerms args =
      ⟨(c.attackBase b).terms ++ ["@" ++ action.key],
        (c.attackBase b).bindings.insert action.key t⟩ := by
    simp only [attackTerms, withActorBonuses, RollTerms.addBonus, item, ammo, acts, bonus,
      RollTerms.addText, request, filter_isBonus adds, Option.toList_none, List.append_nil]
    rfl
  unfold attackRoll
  rw [terms, terms_attackBase]
  rfl

theorem mem_attackNames {path : String} (mem : path ∈ c.attackNames) :
    path = "abl" ∨ path = "prof" :=
  (List.mem_append.1 mem).imp eq_of_mem_integerName eq_of_mem_integerName

/-- A binding of a bonus does not touch the other variables. -/
theorem get?_insert_attackBase {name path : String} (mem : path ∈ c.attackNames)
    (modifier : name ≠ "abl") (proficiency : name ≠ "prof") (b b' : Bindings) :
    ((c.attackBase b).bindings.insert name t).get? path = (c.attackBase b').bindings.get? path := by
  have other : path ≠ name := by
    rcases mem_attackNames mem with rfl | rfl
    · exact modifier.symm
    · exact proficiency.symm
  rw [NameMap.get?_insert_of_ne _ other, get?_attackBase mem b b']

/-- The die of an attack is the twenty-sided one of the actor. -/
theorem rollsDie (c : RunContext) (args : AttackArgs) :
    (c.attackDie args).RollsDie c.actor.d20Term c.attackNames := by
  refine ⟨?_, rfl, fun name mem => ?_⟩
  · change Formula.parse c.actor.d20 = _
    unfold Actor.d20 Actor.d20Term
    split
    · cbv
    · cbv
  · rcases mem_attackNames mem with rfl | rfl
    · simp [Term.Sound, Formula.isPathChar]
    · simp [Term.Sound, Formula.isPathChar]

/-- An attack is its multiple roll. -/
theorem perform_resolveAttack (c : RunContext) (args : AttackArgs) (p : Progress)
    (s : ScriptedSource) :
    perform (c.resolveAttack args p) s =
      let r := perform ((c.attackRoll args).1.resolve (c.attackRoll args).2) s
      ((r.1.mapError RollError.formula).map fun o =>
        (some (.attack ⟨c.rollTitle c.attackTitle, o⟩), p.recordOutcome o), r.2) := by
  have mapped : (c.resolveAttack args p : Resolving ScriptedSource _) =
      (fun o => (some (.attack ⟨c.rollTitle c.attackTitle, o⟩), p.recordOutcome o)) <$>
        rolling ((c.attackRoll args).1.resolve (c.attackRoll args).2) := rfl
  rw [mapped, perform_map, perform_rolling]

/-- An attack is its multiple roll, the texts of formulas aside too. -/
theorem bareStep_resolveAttack (c : RunContext) (args : AttackArgs) (p : Progress)
    (s : ScriptedSource) :
    bareStep (perform (c.resolveAttack args p) s) =
      let r := perform ((c.attackRoll args).1.resolve (c.attackRoll args).2) s
      (((r.1.map MultiRollOutcome.bare).mapError RollError.formula).map fun o =>
        (some (.attack ⟨c.rollTitle c.attackTitle, o⟩), p.bare.recordOutcome o), r.2) := by
  rw [perform_resolveAttack]
  rcases perform ((c.attackRoll args).1.resolve (c.attackRoll args).2) s with ⟨e | o, s'⟩
  · rfl
  · exact Prod.ext (congrArg (fun q => Except.ok (_, q)) (p.bare_recordOutcome o)) rfl

/-- Numbers that are integers up to `2 ^ 53` are doubles. -/
theorem attackNumbersAre_isDouble {s : ScriptedSource}
    (integers : AttackNumbersAre Double.isSafeInteger c args s) :
    AttackNumbersAre Double.isDouble c args s := by
  have refined := MultiRoll.refines_exactRolls Double.isDouble_of_isSafeInteger
    (c.attackRoll args).1 (c.attackRoll args).2
  unfold AttackNumbersAre at integers ⊢
  rwa [refined.perform_eq integers]

/-! ## The routes of a bonus -/

/-- A bonus of the item and the same bonus of the actor come to the same, be it read or not. The
same bonus of the request comes to the same but for the texts of formulas, if it is read, none of
its variables is bound, and the numbers of both attacks are doubles. -/
theorem attack_bonus_routes {c : RunContext} {args : AttackArgs} {t : String}
    (unset : c.attackBonuses args = []) (adds : isBonus t = true) {action : ActionType}
    (acts : c.item.actionType = some action) {bonuses : ActorBonuses}
    (given : bonuses.attack? action = some t) (b b' : Bindings) (p : Progress)
    (s : ScriptedSource) :
    perform ((c.withItemBonus t b).resolveAttack args p) s =
        perform ((c.withActorBonuses bonuses b').resolveAttack args p) s ∧
      ∀ f, Formula.parse t = .ok f →
        (∀ path ∈ Formula.paths f,
          (c.attackRoll { args with bonus := some t }).2.get? path = none) →
        AttackNumbersAre Double.isDouble (c.withItemBonus t b) args s →
        AttackNumbersAre Double.isDouble c { args with bonus := some t } s →
        bareStep (perform ((c.withItemBonus t b).resolveAttack args p) s) =
          bareStep (perform (c.resolveAttack { args with bonus := some t } p) s) := by
  have rolls := c.rollsDie args
  have item := attackRoll_withItemBonus unset adds b
  have actor := attackRoll_withActorBonuses unset adds acts given b'
  have request := attackRoll_request unset adds
  have bonus : (Term.variable "bonus").Sound := by simp [Term.Sound, Formula.isPathChar]
  have key : (Term.variable action.key).Sound ∧ action.key ≠ "abl" ∧ action.key ≠ "prof" := by
    cases action with
    | _ => simp [Term.Sound, Formula.isPathChar, ActionType.key]
  obtain ⟨key, modifier, proficiency⟩ := key
  constructor
  · have same (name : String) (mem : name ∈ c.attackNames) :
        ((c.attackBase b).bindings.insert "bonus" t).get? name =
          ((c.attackBase b').bindings.insert action.key t).get? name :=
      (get?_insert_attackBase mem (by decide) (by decide) b b).trans
        (get?_insert_attackBase mem modifier proficiency b' b).symm
    have bound : ((c.attackBase b).bindings.insert "bonus" t).get? "bonus" =
        ((c.attackBase b').bindings.insert action.key t).get? action.key :=
      (NameMap.get?_insert_self _ _ _).trans (NameMap.get?_insert_self _ _ _).symm
    rw [perform_resolveAttack, perform_resolveAttack, item, actor]
    simp only [rolls.resolve_adding_congr bonus key same bound s]
    rfl
  · intro f parsed unbound exact exact'
    have same (name : String) (mem : name ∈ c.attackNames) :
        ((c.attackBase b).bindings.insert "bonus" t).get? name =
          (c.attackBase c.bindings).bindings.get? name :=
      get?_insert_attackBase mem (by decide) (by decide) b c.bindings
    unfold AttackNumbersAre at exact exact'
    rw [request] at unbound exact'
    rw [item] at exact
    have alike := rolls.bare_resolve_adding bonus same (NameMap.get?_insert_self _ _ _) parsed
      unbound exact exact'
    obtain ⟨results, states⟩ := Prod.mk.inj alike
    rw [bareStep_resolveAttack, bareStep_resolveAttack, item, request]
    simp only [results, states]
    rfl

end RunContext

/-! ## A mace -/

def mace : Item where
  id := "mace"
  name := "Mace"
  kind := .weapon
  actionType := some .meleeWeapon
  proficient := .finite 1

def squire : Actor where
  id := "squire"
  name := "Squire"
  abilities := { strength := { value := 16 } }
  items := [mace]

/-- A run of the mace, which adds a modifier of three and a proficiency bonus of two. -/
def melee : RunContext := .ofRun {} {} squire mace none

/-- What the mace rolls and adds besides bonuses. -/
def meleeSum : Formula :=
  [.dice ⟨1, 20, []⟩, .operator .add, .variable "abl", .operator .add, .variable "prof"]

/-- The same with its variables replaced. -/
def meleeReplaced : Formula :=
  [.dice ⟨1, 20, []⟩, .operator .add, .number 3, .operator .add, .number 2]

theorem melee_unset : melee.attackBonuses {} = [] := by decide +kernel

theorem melee_bound (b : Bindings) :
    (melee.attackBase b).bindings.get? "abl" = some "3" ∧
      (melee.attackBase b).bindings.get? "prof" = some "2" := by
  have modifier : melee.attackModifier = 3 := by decide +kernel
  have proficiency : melee.attackProficiency = 2 := by decide +kernel
  rw [RunContext.attackBase, modifier, proficiency]
  constructor
  · rw [RollTerms.get?_addInteger_of_ne _ (by decide),
      RollTerms.get?_addInteger_of_mem _ (by decide)]
    rfl
  · rw [RollTerms.get?_addInteger_of_mem _ (by decide)]
    rfl

theorem melee_parsed {text : String} {f : Formula} (read : Formula.parse text = .ok f) :
    Formula.parse ((melee.attackDie {}).adding text).composed =
      .ok (meleeSum ++ .operator .add :: f) := by
  have names : melee.attackNames = ["abl", "prof"] := by decide +kernel
  have composed := (melee.rollsDie {}).parse_adding read
  rwa [names] at composed

theorem melee_substituted {b : Bindings} (modifier : b.get? "abl" = some "3")
    (proficiency : b.get? "prof" = some "2") {f g : Formula}
    (added : Formula.substitute b f = .ok g) :
    Formula.substitute b (meleeSum ++ .operator .add :: f) =
      .ok (meleeReplaced ++ .operator .add :: g) := by
  have three : Formula.boundTerm "3" = .ok (.number 3) := by cbv
  have two : Formula.boundTerm "2" = .ok (.number 2) := by cbv
  have base : Formula.substitute b meleeSum = .ok meleeReplaced := by
    simp only [meleeSum, Formula.substitute, Term.substitute, modifier, proficiency, three, two]
    rfl
  rw [Formula.substitute_add, added, base]
  rfl

/-- The formula of the mace with a bonus of its own, its variables replaced. -/
theorem melee_substituted_item {t : String} {u : Term} (read : Formula.boundTerm t = .ok u)
    (b : Bindings) :
    Formula.substitute ((melee.attackBase b).bindings.insert "bonus" t)
        (meleeSum ++ [.operator .add, .variable "bonus"]) =
      .ok (meleeReplaced ++ [.operator .add, u]) := by
  obtain ⟨modifier, proficiency⟩ := melee_bound b
  refine melee_substituted ?_ ?_ ?_
  · exact (NameMap.get?_insert_of_ne _ (by decide) _).trans modifier
  · exact (NameMap.get?_insert_of_ne _ (by decide) _).trans proficiency
  · simp only [Formula.substitute, Term.substitute, NameMap.get?_insert_self, read]
    rfl

theorem parse_bonus : Formula.parse ("@" ++ "bonus") = .ok [.variable "bonus"] := by cbv

/-- A die and something that is not known are a bonus from anywhere. -/
theorem luck_routes :
    let bonus := "1d4 + @luck"
    let byItem := melee.withItemBonus bonus melee.bindings
    let byActor :=
      melee.withActorBonuses { meleeWeapon := { attack := some bonus } } melee.bindings
    let s := ScriptedSource.ofFaces [10, 3]
    perform (byItem.resolveAttack {} {}) s = perform (byActor.resolveAttack {} {}) s ∧
      bareStep (perform (byItem.resolveAttack {} {}) s) =
        bareStep (perform (melee.resolveAttack { bonus := some bonus } {}) s) := by
  intro bonus byItem byActor s
  have adds : isBonus bonus = true := by decide +kernel
  have read : Formula.parse bonus = .ok [.dice ⟨1, 4, []⟩, .operator .add, .variable "luck"] := by
    cbv
  have term : Formula.boundTerm bonus =
      .ok (.group [.dice ⟨1, 4, []⟩, .operator .add, .variable "luck"]) := by cbv
  obtain ⟨modifier, proficiency⟩ := melee_bound melee.bindings
  have luck : (melee.attackBase melee.bindings).bindings.get? "luck" = none := by decide +kernel
  have item : byItem.attackRoll {} = _ :=
    RunContext.attackRoll_withItemBonus melee_unset adds melee.bindings
  have request := RunContext.attackRoll_request melee_unset adds
  have acts : melee.item.actionType = some .meleeWeapon := rfl
  have given : ({ meleeWeapon := { attack := some bonus } } : ActorBonuses).attack? .meleeWeapon =
      some bonus := by decide +kernel
  obtain ⟨bound, written⟩ := RunContext.attack_bonus_routes melee_unset adds acts given
    melee.bindings melee.bindings {} s
  refine ⟨bound, written _ read ?_ ?_ ?_⟩
  · rw [request]
    simpa [Formula.paths, Term.paths] using luck
  · refine RunContext.attackNumbersAre_isDouble ?_
    unfold RunContext.AttackNumbersAre
    rw [item, MultiRoll.exactRolls_of_substitute (melee_parsed parse_bonus)
      (melee_substituted_item term _)]
    decide +kernel
  · refine RunContext.attackNumbersAre_isDouble ?_
    unfold RunContext.AttackNumbersAre
    have added : Formula.substitute (melee.attackBase melee.bindings).bindings
        [.dice ⟨1, 4, []⟩, .operator .add, .variable "luck"] =
        .ok [.dice ⟨1, 4, []⟩, .operator .add, .number 0] := by
      simp only [Formula.substitute, Term.substitute, luck]
      rfl
    rw [request, MultiRoll.exactRolls_of_substitute (melee_parsed read)
      (melee_substituted modifier proficiency added)]
    decide +kernel

/-- The attack of the mace that shows a ten. -/
def meleeTen (formula : String) (total : Int) : MultiRollOutcome :=
  (melee.attackDie {}).outcomeOf (.faces [20]) [⟨formula, total, [⟨20, [⟨10, true⟩]⟩]⟩]

theorem melee_resolved {c : RunContext} {args : AttackArgs} {term : String} {b : Bindings}
    (roll : c.attackRoll args = ((melee.attackDie {}).adding term, b))
    (title : c.rollTitle c.attackTitle = some "Attack") {f g : Formula}
    (read : Formula.parse ((melee.attackDie {}).adding term).composed =
      .ok (meleeSum ++ .operator .add :: f))
    (replaced : Formula.substitute b (meleeSum ++ .operator .add :: f) = .ok g) {value : Double}
    (rolled : perform (Formula.evaluateFrom Partial.start g) (⟨[10]⟩ : Script) =
      (.ok (value, [⟨20, [⟨10, true⟩]⟩]), ⟨[]⟩)) {formula : String} {total : Int}
    (text : Formula.render g = formula) (floor : value.floor.toInteger = total) :
    perform (c.resolveAttack args {}) (ScriptedSource.ofFaces [10]) =
      (.ok (some (.attack ⟨some "Attack", meleeTen formula total⟩),
        ({} : Progress).recordOutcome (meleeTen formula total)), ⟨⟨[]⟩, 1⟩) := by
  have count : (melee.attackDie {}).rollCount = 1 := by decide +kernel
  have once := (MultiRoll.rollCount_adding (melee.attackDie {}) term).trans count
  have resolved : perform (((melee.attackDie {}).adding term).resolve b)
      (ScriptedSource.ofFaces [10]) = _ :=
    MultiRoll.perform_resolve_once read once replaced rolled
  rw [MultiRoll.outcomeOf_adding _ _ _ (List.cons_ne_nil _ _), text, floor] at resolved
  rw [RunContext.perform_resolveAttack, roll]
  simp only [resolved, title]
  rfl

/-- The proficiency bonus as a bonus is worth two in a request, and nothing as one of the item. -/
theorem proficiency_routes_differ :
    let byItem := melee.withItemBonus "@prof" melee.bindings
    let byRequest : AttackArgs := { bonus := some "@prof" }
    let s := ScriptedSource.ofFaces [10]
    let fifteen := meleeTen "1d20 + 3 + 2 + @prof" 15
    let seventeen := meleeTen "1d20 + 3 + 2 + 2" 17
    melee.attackBonuses {} = [] ∧ isBonus "@prof" = true ∧
      Formula.parse "@prof" = .ok [.variable "prof"] ∧
      RunContext.AttackNumbersAre Double.isSafeInteger byItem {} s ∧
      RunContext.AttackNumbersAre Double.isSafeInteger melee byRequest s ∧
      perform (byItem.resolveAttack {} {}) s =
        (.ok (some (.attack ⟨some "Attack", fifteen⟩), ({} : Progress).recordOutcome fifteen),
          ⟨⟨[]⟩, 1⟩) ∧
      perform (melee.resolveAttack byRequest {}) s =
        (.ok (some (.attack ⟨some "Attack", seventeen⟩), ({} : Progress).recordOutcome seventeen),
          ⟨⟨[]⟩, 1⟩) ∧
      fifteen.total? = some 15 ∧ seventeen.total? = some 17 := by
  intro byItem byRequest s fifteen seventeen
  have adds : isBonus "@prof" = true := by decide +kernel
  have read : Formula.parse "@prof" = .ok [.variable "prof"] := by cbv
  have term : Formula.boundTerm "@prof" = .ok (.variable "prof") := by cbv
  have two : Formula.boundTerm "2" = .ok (.number 2) := by cbv
  obtain ⟨modifier, proficiency⟩ := melee_bound melee.bindings
  have added : Formula.substitute (melee.attackBase melee.bindings).bindings [.variable "prof"] =
      .ok [.number 2] := by
    simp only [Formula.substitute, Term.substitute, proficiency, two]
    rfl
  have item : byItem.attackRoll {} = _ :=
    RunContext.attackRoll_withItemBonus melee_unset adds melee.bindings
  have request : melee.attackRoll byRequest = _ := RunContext.attackRoll_request melee_unset adds
  have title : melee.rollTitle melee.attackTitle = some "Attack" := by decide +kernel
  refine ⟨melee_unset, adds, read, ?_, ?_, ?_, ?_, by decide +kernel, by decide +kernel⟩
  · unfold RunContext.AttackNumbersAre
    rw [item, MultiRoll.exactRolls_of_substitute (melee_parsed parse_bonus)
      (melee_substituted_item term _)]
    decide +kernel
  · unfold RunContext.AttackNumbersAre
    rw [request, MultiRoll.exactRolls_of_substitute (melee_parsed read)
      (melee_substituted modifier proficiency added)]
    decide +kernel
  · have rolled : perform (Formula.evaluateFrom Partial.start
        (meleeReplaced ++ [.operator .add, .variable "prof"])) (⟨[10]⟩ : Script) =
        (.ok (.finite 15, [⟨20, [⟨10, true⟩]⟩]), ⟨[]⟩) := by decide +kernel
    exact melee_resolved item title (melee_parsed parse_bonus)
      (melee_substituted_item term melee.bindings) rolled (by decide +kernel) (by decide +kernel)
  · have rolled : perform (Formula.evaluateFrom Partial.start
        (meleeReplaced ++ [.operator .add, .number 2])) (⟨[10]⟩ : Script) =
        (.ok (.finite 17, [⟨20, [⟨10, true⟩]⟩]), ⟨[]⟩) := by decide +kernel
    exact melee_resolved request title (melee_parsed read)
      (melee_substituted modifier proficiency added) rolled (by decide +kernel)
      (by decide +kernel)

end Tabletop
