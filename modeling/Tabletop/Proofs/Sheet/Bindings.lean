import Tabletop.Proofs.NameMap
import Tabletop.Proofs.Run.Resolution
/-!
# What formulas refer to

A run binds the names of its actor, and under `item.` those of its item. Rolls add names of their
own to these, and none of them has a dot, so that every dotted path means the same in all formulas
of a run: what it means for the actor and the item that the run was started with.
-/

namespace Tabletop

namespace Bindings

theorem nest_eq (b : Bindings) (root : String) (other : Bindings) :
    b.nest root other = b.insertAll (other.entries.map fun e => (root ++ "." ++ e.1, e.2)) := by
  unfold nest NameMap.insertAll
  rw [List.foldl_map]

/-- What is nested under a root is found there. -/
theorem get?_nest (b : Bindings) (root : String) {other : Bindings} {key value : String}
    (h : other.get? key = some value) :
    (b.nest root other).get? (root ++ "." ++ key) = some value := by
  have injective : Function.Injective fun key => root ++ "." ++ key :=
    fun _ _ same => (String.append_right_inj _).1 same
  have apart := other.nodup_names.map injective
  rw [List.map_map] at apart
  rw [nest_eq]
  refine NameMap.get?_insertAll_of_mem ?_
    (List.mem_map.2 ⟨(key, value), NameMap.mem_entries_iff.2 h, rfl⟩)
  rw [List.map_map]
  exact apart

/-- Paths that do not begin with the root are left alone. -/
theorem get?_nest_of_ne (b : Bindings) {root path : String} (other : Bindings)
    (outside : ∀ key, path ≠ root ++ "." ++ key) :
    (b.nest root other).get? path = b.get? path := by
  rw [nest_eq]
  refine NameMap.get?_insertAll_of_notMem fun mem => ?_
  rw [List.map_map] at mem
  obtain ⟨e, -, same⟩ := List.mem_map.1 mem
  exact outside e.1 same.symm

end Bindings

namespace Item

variable (item : Item) (level : Option Nat)

theorem rollBindings_quantity :
    (item.rollBindings level).get? "quantity" = some (toString item.quantity) := by
  unfold rollBindings
  rw [NameMap.get?_insert_of_ne _ (by decide), NameMap.get?_insert_of_ne _ (by decide),
    NameMap.get?_insert_self]

theorem rollBindings_uses :
    (item.rollBindings level).get? "uses.value" = some (toString item.uses.value) := by
  unfold rollBindings
  rw [NameMap.get?_insert_of_ne _ (by decide), NameMap.get?_insert_self]

end Item

/-! ## The names that rolls add -/

/-- Paths with a dot, which the names that rolls add do not have. -/
def Dotted (path : String) : Prop := '.' ∈ path.toList

instance : DecidablePred Dotted := fun path => inferInstanceAs (Decidable ('.' ∈ path.toList))

/-- Bindings that mean the same wherever a path has a dot. -/
def SameDotted (b c : Bindings) : Prop := ∀ path, Dotted path → b.get? path = c.get? path

theorem SameDotted.insert {b c : Bindings} (h : SameDotted b c) {name : String}
    (plain : ¬Dotted name) (value : String) : SameDotted (b.insert name value) c := by
  intro path dotted
  have other : path ≠ name := fun same => plain (same ▸ dotted)
  rw [NameMap.get?_insert_of_ne _ other]
  exact h path dotted

namespace RollTerms

variable {r : RollTerms} {b : Bindings} {name : String}

@[simp]
theorem bindings_addText (r : RollTerms) (bonus : Option String) :
    (r.addText bonus).bindings = r.bindings := rfl

theorem sameDotted_addInteger (h : SameDotted r.bindings b) (plain : ¬Dotted name) (value : Int) :
    SameDotted (r.addInteger name value).bindings b := by
  unfold addInteger
  split
  · exact h
  · exact h.insert plain _

theorem sameDotted_addBonus (h : SameDotted r.bindings b) (plain : ¬Dotted name)
    (bonus : Option String) : SameDotted (r.addBonus name bonus).bindings b := by
  unfold addBonus
  cases bonus.filter isBonus with
  | none => exact h
  | some text => exact h.insert plain _

end RollTerms

theorem ActionType.not_dotted_key (action : ActionType) : ¬Dotted action.key := by
  cases action <;> decide

namespace RunContext

variable (c : RunContext)

theorem sameDotted_attackRoll (args : AttackArgs) :
    SameDotted (c.attackRoll args).2 c.bindings := by
  let r : RollTerms := ⟨[], c.bindings⟩
  have start : SameDotted r.bindings c.bindings := fun _ _ => rfl
  have abl : ¬Dotted "abl" := by decide
  have prof : ¬Dotted "prof" := by decide
  have bonus : ¬Dotted "bonus" := by decide
  have ammo : ¬Dotted "ammo" := by decide
  have ability := RollTerms.sameDotted_addInteger start abl
    (((attackAbility c.actor c.item).map c.actor.modifier).getD 0)
  have proficiency := RollTerms.sameDotted_addInteger ability prof c.attackProficiency
  have own := RollTerms.sameDotted_addBonus proficiency bonus c.item.attackBonus
  have fired := RollTerms.sameDotted_addBonus own ammo (c.ammo.bind (·.attackBonus))
  unfold attackRoll attackTerms
  dsimp only
  rw [RollTerms.bindings_addText]
  split
  · exact RollTerms.sameDotted_addBonus fired (ActionType.not_dotted_key _) _
  · exact fired

theorem sameDotted_checkRoll (args : CheckArgs) :
    SameDotted (c.checkRoll args).2 c.bindings := by
  let r : RollTerms := ⟨[], c.bindings⟩
  have start : SameDotted r.bindings c.bindings := fun _ _ => rfl
  have mod : ¬Dotted "mod" := by decide
  have prof : ¬Dotted "prof" := by decide
  have bonus : ¬Dotted "bonus" := by decide
  have ability := RollTerms.sameDotted_addInteger start mod
    ((c.item.ability.map c.actor.modifier).getD 0)
  have proficiency := RollTerms.sameDotted_addInteger ability prof
    (c.actor.proficiencyTimes c.item.proficient)
  exact RollTerms.sameDotted_addBonus proficiency bonus c.item.checkBonus

theorem sameDotted_insert_mod (value : String) :
    SameDotted (c.bindings.insert "mod" value) c.bindings :=
  SameDotted.insert (fun _ _ => rfl) (by decide) value

theorem sameDotted_damageRoll {line : DamageStep} {roll : DamageRoll}
    (h : c.damageRoll? line = .ok (some roll)) : SameDotted roll.bindings c.bindings := by
  obtain ⟨item, part, formula, -, -, -, -, rfl⟩ := damageRoll?_eq_some_iff.1 h
  exact c.sameDotted_insert_mod _

theorem sameDotted_otherRoll {roll : DamageRoll} (h : c.otherRoll? = some roll) :
    SameDotted roll.bindings c.bindings := by
  obtain ⟨formula, -, made⟩ := Option.bind_eq_some_iff.1 h
  cases made
  exact c.sameDotted_insert_mod _

end RunContext

/-- What the formula of a task can refer to, if the task rolls one. -/
def Task.bindings? : Task → Option Bindings
  | .quiet _ => none
  | .rolls _ _ _ b => some b
  | .line (.ok roll) => roll.map (·.bindings)
  | .line (.error _) => none
  | .other roll => roll.map (·.bindings)

theorem Task.bindings?_line_eq_some {roll : Except RollError (Option DamageRoll)} {b : Bindings}
    (h : (Task.line roll).bindings? = some b) : ∃ r, roll = .ok (some r) ∧ r.bindings = b := by
  cases roll with
  | error e => cases h
  | ok roll =>
    obtain ⟨r, rfl, bound⟩ := Option.map_eq_some_iff.1 h
    exact ⟨r, rfl, bound⟩

/-- Whatever formula a step rolls, its dotted paths mean what they mean for the whole run. -/
theorem RunContext.sameDotted_task (c : RunContext) {step : Step} {b : Bindings}
    (h : (c.task step).bindings? = some b) : SameDotted b c.bindings := by
  cases task : c.task step with
  | quiet entry =>
    rw [task] at h
    cases h
  | rolls kind title roll bound =>
    rw [task] at h
    obtain rfl := Option.some.inj h
    cases step with
    | damage line => cases task
    | request request =>
      cases request with
      | attack args =>
        cases task
        exact c.sameDotted_attackRoll args
      | check args =>
        cases task
        exact c.sameDotted_checkRoll args
      | custom args =>
        cases task
        exact fun _ _ => rfl
      | critExtra index =>
        rcases c.task_critExtra_cases index with same | ⟨i, same⟩ <;> cases same.symm.trans task
      | _ => cases task
  | line roll =>
    rw [task] at h
    obtain ⟨r, rfl, rfl⟩ := Task.bindings?_line_eq_some h
    obtain ⟨line, found, -⟩ := task_eq_line task
    exact c.sameDotted_damageRoll found
  | other roll =>
    rw [task] at h
    obtain ⟨r, rfl, rfl⟩ := Option.map_eq_some_iff.1 h
    exact c.sameDotted_otherRoll (task_eq_other task).2

/-! ## The sheet that formulas read -/

/-- Bindings that show an actor, and under `item.` an item, as they are here. Names without a dot
are left open. -/
structure ReadsSheet (actor : Actor) (item : Item) (level : Option Nat) (b : Bindings) : Prop where
  quantity : b.get? "item.quantity" = some (toString item.quantity)
  uses : b.get? "item.uses.value" = some (toString item.uses.value)
  ofItem : ∀ key value, (item.rollBindings level).get? key = some value →
    b.get? ("item." ++ key) = some value
  ofActor : ∀ path, Dotted path → (∀ key, path ≠ "item." ++ key) →
    b.get? path = actor.rollBindings.get? path

theorem nested_item (key : String) : "item" ++ "." ++ key = "item." ++ key :=
  congrArg (· ++ key) (by decide : "item" ++ "." = "item.")

theorem dotted_item (key : String) : Dotted ("item." ++ key) := by
  unfold Dotted
  rw [String.toList_append]
  exact List.mem_append_left _ (by decide)

/-- What a run binds at first shows its actor and its item, and so does all that means the same
wherever a path has a dot. -/
theorem SameDotted.readsSheet {actor : Actor} {item : Item} {level : Option Nat} {b : Bindings}
    (h : SameDotted b (Bindings.nest actor.rollBindings "item" (item.rollBindings level))) :
    ReadsSheet actor item level b := by
  have ofItem : ∀ key value, (item.rollBindings level).get? key = some value →
      b.get? ("item." ++ key) = some value := by
    intro key value bound
    have nested := actor.rollBindings.get?_nest "item" bound
    rw [nested_item] at nested
    exact (h _ (dotted_item key)).trans nested
  have ofActor : ∀ path, Dotted path → (∀ key, path ≠ "item." ++ key) →
      b.get? path = actor.rollBindings.get? path := by
    intro path dotted outside
    refine (h path dotted).trans (Bindings.get?_nest_of_ne _ _ fun key => ?_)
    rw [nested_item]
    exact outside key
  have quantity := ofItem "quantity" _ (item.rollBindings_quantity level)
  have uses := ofItem "uses.value" _ (item.rollBindings_uses level)
  rw [(by decide : "item." ++ "quantity" = "item.quantity")] at quantity
  rw [(by decide : "item." ++ "uses.value" = "item.uses.value")] at uses
  exact ⟨quantity, uses, ofItem, ofActor⟩

end Tabletop
