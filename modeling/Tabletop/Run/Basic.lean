import Tabletop.Request.Preset
import Tabletop.Run.Ledger
import Tabletop.Run.Step
/-!
# Runs

A run uses an item of an actor. First all is checked that can fail without a die: the item, the
slot of a spell, the counters of the item, and the damage lines. Then the plan is resolved. Only
when every step succeeded is anything spent: the linked resource first, because that can still be
refused, then the counters of the item and the spell slot.
-/

namespace Tabletop

/-- What runs change: an actor, a source of dice, and a host. -/
structure Table (σ η : Type) where
  actor : Actor
  source : σ
  host : η

/-- A computation at a table; what it did before it gives up stays done. -/
abbrev Playing (σ η : Type) := ExceptT RollError (StateM (Table σ η))

/-- The level at which a spell is cast, and what that costs. -/
structure SpellCast where
  level : Nat
  /-- The slot that is spent. -/
  spend : Option SlotLevel
  placeTemplate : Bool
deriving DecidableEq

namespace Item

/-- Whether the run's parameters, and not the choice of a slot, decide about the template. -/
def templateOnRequest (item : Item) : Bool :=
  item.kind = .feat || (item.kind = .spell && item.level = 0)

/-- The ammunition that is fired with an item, if it is spent and its owner has it. -/
def ammo? (item : Item) (actor : Actor) (params : RollParams) : Option Item :=
  if params.consume.useLinkedResource then
    (item.consume.filter (·.kind = .ammo)).bind fun target => actor.item? target.target
  else none

/-- Whether someone is asked for the slot of the item. -/
def asksSlot (item : Item) (params : RollParams) : Bool :=
  item.kind = .spell && params.slotLevel.isNone && item.level ≠ 0

/-- How an item is cast when nobody is asked for a slot: at the level of the parameters, or at
level zero as a cantrip. Only spells are cast. -/
def castUnasked? (item : Item) (params : RollParams) : Option SpellCast :=
  if item.kind = .spell then
    match params.slotLevel with
    | some level => some ⟨level, none, params.useTemplate && item.templateOnRequest⟩
    | none => some ⟨0, none, params.useTemplate⟩
  else none

/-- How a spell is cast with a slot that was chosen. -/
def castChosen (item : Item) (actor : Actor) (choice : SlotChoice) : Except RollError SpellCast :=
  let level :=
    match choice.level with
    | .level n => n
    | .pact => actor.spells.pact.level
  if choice.consumeSlot && (actor.spells.remaining? choice.level).getD 0 = 0 then
    .error (.noSlotsAvailable item.name choice.level)
  else .ok ⟨level, if choice.consumeSlot then some choice.level else none, choice.placeTemplate⟩

/-- Whether the template of an item is placed. -/
def placesTemplate (item : Item) (params : RollParams) (cast : Option SpellCast) : Bool :=
  item.areaTarget &&
    match cast with
    | some cast => cast.placeTemplate
    | none => params.useTemplate && item.templateOnRequest

end Item

/-- What the steps of a run read. -/
def RunContext.ofRun (config : PipelineConfig) (params : RollParams) (actor : Actor) (item : Item)
    (cast : Option SpellCast) : RunContext :=
  let castLevel := cast.map (·.level)
  { config, params, actor, item
    ammo := item.ammo? actor params
    castLevel
    bindings := Bindings.nest actor.rollBindings "item" (item.rollBindings castLevel) }

/-- The result of a run, from its entries and what they left behind. -/
def RunContext.result (c : RunContext) (cast : Option SpellCast) (entries : List ResultEntry)
    (p : Progress) (consumption : ConsumeOutcome) : CompositeResult :=
  { itemId := c.item.id
    itemName := c.item.name
    title := c.params.title.getD c.item.name
    slotLevel := (cast.filter (·.level ≠ c.item.level)).map (·.level)
    isCrit := p.isCrit
    entries
    properties := if c.params.properties then c.item.properties else []
    dicePool := p.dicePool
    consumption }

namespace Playing

variable {σ η : Type}

/-- Uses the source of dice. -/
def onSource {α : Type} (x : Resolving σ α) : Playing σ η α := ExceptT.mk fun t =>
  let (result, source) := x.run.run t.source
  (result, { t with source })

/-- Uses the host. -/
def onHost {α : Type} (x : ExceptT RollError (StateM η) α) : Playing σ η α := ExceptT.mk fun t =>
  let (result, host) := x.run.run t.host
  (result, { t with host })

/-- Uses an item of the actor and the host. The item is written back also if that fails. -/
def onItem {α : Type} (owned : Item) (x : ExceptT RollError (StateM (Ledger.Account η)) α) :
    Playing σ η α := ExceptT.mk fun t =>
  let (result, account) := x.run.run ⟨owned, t.host⟩
  let actor := t.actor.modifyItem owned.id fun _ => account.item
  (result, { t with actor, host := account.consumer })

def modifyActor (f : Actor → Actor) : Playing σ η Unit :=
  modify fun t => { t with actor := f t.actor }

variable [RollHost η]

/-- How an item is cast, if it is a spell; the host may be asked for the slot. -/
def configureSpell (item : Item) (params : RollParams) : Playing σ η (Option SpellCast) := do
  if item.asksSlot params then
    match ← onHost (modifyGet (RollHost.choose item)) with
    | none => throw (.slotSelectionCancelled item.name)
    | some choice => return some (← item.castChosen (← get).actor choice)
  else return item.castUnasked? params

/-- Spends what a run costs. -/
def commit (item : Item) (params : RollParams) (cast : Option SpellCast) :
    Playing σ η ConsumeOutcome := do
  match (← get).actor.item? item.id with
  | none => throw (.unknownItem item.id)
  | some owned =>
    let outcome ← onItem owned (Ledger.pay params.consume)
    if let some slot := cast.bind (·.spend) then
      modifyActor fun actor =>
        { actor with spells := (actor.spells.spend? slot).elim actor.spells (·.2) }
    if item.placesTemplate params cast then
      onHost (modify (RollHost.place item))
    if outcome = .destroy then modifyActor (·.removeItem item.id)
    return outcome

variable [RandomSource σ]

/-- Uses an item of the actor: resolves the requests, and spends what that costs. -/
def run (config : PipelineConfig) (itemId : String) (requests : List RollRequest)
    (params : RollParams) : Playing σ η CompositeResult := do
  let actor := (← get).actor
  match actor.item? itemId with
  | none => throw (.unknownItem itemId)
  | some item =>
    let cast ← configureSpell item params
    Ledger.preflight item params.consume
    let steps ← Plan.expand requests item (item.ammo? actor params) params.versatile
    let c := RunContext.ofRun config params actor item cast
    let (entries, p) ← onSource (c.resolvePlan steps)
    let consumption ← commit item params cast
    return c.result cast entries p consumption

/-- Makes one of the quick rolls of an item. -/
def runPreset (config : PipelineConfig) (itemId : String) (preset : Preset) :
    Playing σ η CompositeResult := do
  match (← get).actor.item? itemId with
  | none => throw (.unknownItem itemId)
  | some item =>
    let (params, requests) := item.quickRoll preset
    run config itemId requests params

end Playing

end Tabletop
