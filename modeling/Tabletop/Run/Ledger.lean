import Tabletop.Run.Error
import Tabletop.Run.Host
import Tabletop.Run.Result
/-!
# Ledger

Using an item may cost charges, a piece of its quantity, its recharge and a linked resource. All of
that is checked before anything changes, and the linked resource is spent last.
-/

namespace Tabletop.Ledger

/-- Whether a request can be met by the counters of an item. The linked resource is left to its
consumer. -/
def preflight (item : Item) (r : ConsumptionRequest) : Except RollError Unit :=
  let tracked := item.uses.isConfigured
  let spentUses := item.uses.value = 0
  if tracked && r.useCharges && !r.useQuantity && spentUses then
    .error (.insufficientUses item.name)
  else if r.useQuantity && !r.useCharges && item.quantity = 0 then
    .error (.insufficientUses item.name)
  else if tracked && r.useCharges && r.useQuantity && spentUses && item.quantity ≤ 1 then
    .error (.insufficientUses item.name)
  else if r.useRecharge && !item.recharge.any (·.charged) then
    .error (.notRecharged item.name)
  else .ok ()

/-- Whether the consumer of linked resources has to be asked. -/
def asksConsumer (item : Item) (r : ConsumptionRequest) : Bool :=
  r.useLinkedResource && item.consume.isSome

/-- The uses and the quantity after a request was met, and whether the item is used up. Charges and
quantity together take a charge, and once the charges are gone a new piece with full charges. -/
def countersAfter (item : Item) (r : ConsumptionRequest) : Nat × Nat × ConsumeOutcome :=
  let uses := item.uses.value
  let quantity := item.quantity
  let tracked := item.uses.isConfigured
  let outcome (destroyed : Bool) : ConsumeOutcome :=
    if destroyed && item.uses.autoDestroy then .destroy else .success
  if tracked && r.useCharges && !r.useQuantity then (uses - 1, quantity, .success)
  else if r.useQuantity && !r.useCharges then (uses, quantity - 1, outcome (quantity ≤ 1))
  else if tracked && r.useCharges && r.useQuantity then
    if uses - 1 < 1 then
      (if 1 ≤ quantity - 1 then item.uses.max else 0, quantity - 1, outcome (quantity - 1 < 1))
    else (uses - 1, quantity, .success)
  else (uses, quantity, .success)

/-- The item after a request was met. -/
def spend (item : Item) (r : ConsumptionRequest) : Item × ConsumeOutcome :=
  let (uses, quantity, outcome) := countersAfter item r
  let recharge :=
    if r.useRecharge then item.recharge.map fun x => { x with charged := false } else item.recharge
  ({ item with uses := { item.uses with value := uses }, quantity, recharge }, outcome)

/-- What a request is met from: an item, and the consumer of linked resources. -/
structure Account (η : Type) where
  item : Item
  consumer : η

/-- Takes from the item what a request asks for. -/
def Account.spend {η : Type} (r : ConsumptionRequest) (a : Account η) :
    ConsumeOutcome × Account η :=
  let (item, outcome) := Ledger.spend a.item r
  (outcome, { a with item })

section

variable {η : Type} [ResourceConsumer η]

/-- Asks the consumer to spend the linked resource of the item. -/
def Account.ask (a : Account η) : Bool × Account η :=
  let (granted, consumer) := ResourceConsumer.consume a.item a.consumer
  (granted, { a with consumer })

/-- Checks a request, asks the consumer if it has to be asked, and only then changes the item. -/
def pay (r : ConsumptionRequest) : ExceptT RollError (StateM (Account η)) ConsumeOutcome := do
  let item := (← get).item
  preflight item r
  if asksConsumer item r then
    let granted ← modifyGet Account.ask
    if !granted then throw (.resourceConsumptionRefused item.name)
  modifyGet (Account.spend r)

/-- Has an item pay for a request; with the outcome comes what is left of the item. -/
def consume (item : Item) (r : ConsumptionRequest) :
    ExceptT RollError (StateM η) (Item × ConsumeOutcome) := ExceptT.mk fun consumer =>
  let (result, account) := (pay r).run.run ⟨item, consumer⟩
  (result.map fun outcome => (account.item, outcome), account.consumer)

end

end Tabletop.Ledger
