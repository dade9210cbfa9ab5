import Tabletop.Proofs.Run.Effect
/-!
# The ledger over a history of uses

An item is used again and again, with a request each time and a consumer of linked resources that
answers as it likes. `CounterChange` lists what one request does to the counters; what holds of
every history is read off that list, by one step after the other. The counters of an item come back
only where a new piece is taken.
-/

namespace Tabletop.Ledger

/-! ## What one request spends -/

/-- An item that has no piece but the one in use ends when that one is used up. -/
def lastPiece (item : Item) : ConsumeOutcome :=
  if item.uses.autoDestroy = true ∧ item.quantity ≤ 1 then .destroy else .success

/-- The uses and the quantity after a request, and how it ends, from what is asked for. -/
inductive CounterChange (item : Item) (r : ConsumptionRequest) : Nat × Nat × ConsumeOutcome → Prop
  /-- A charge and no piece. -/
  | charge (tracked : item.uses.isConfigured = true) (charges : r.useCharges = true)
      (quantity : r.useQuantity = false) :
      CounterChange item r (item.uses.value - 1, item.quantity, .success)
  /-- A piece and no charge. -/
  | piece (charges : r.useCharges = false) (quantity : r.useQuantity = true) :
      CounterChange item r (item.uses.value, item.quantity - 1, lastPiece item)
  /-- A charge of a piece that has more of them. -/
  | chargeOfPiece (tracked : item.uses.isConfigured = true) (charges : r.useCharges = true)
      (quantity : r.useQuantity = true) (more : 1 < item.uses.value) :
      CounterChange item r (item.uses.value - 1, item.quantity, .success)
  /-- The last charge of a piece; the next piece, if there is one, has all of its charges. -/
  | lastCharge (tracked : item.uses.isConfigured = true) (charges : r.useCharges = true)
      (quantity : r.useQuantity = true) (last : item.uses.value ≤ 1) :
      CounterChange item r
        (if 1 < item.quantity then item.uses.max else 0, item.quantity - 1, lastPiece item)
  /-- Nothing that is counted is asked for. -/
  | nothing (unused : r.useQuantity = false ∨ r.useCharges = true)
      (untracked : r.useCharges = true → item.uses.isConfigured = false) :
      CounterChange item r (item.uses.value, item.quantity, .success)

theorem lastPiece_eq_destroy_iff {item : Item} :
    lastPiece item = .destroy ↔ item.uses.autoDestroy = true ∧ item.quantity ≤ 1 := by
  unfold lastPiece
  split
  · next h => exact iff_of_true rfl h
  · next h => exact iff_of_false (by decide) h

theorem ended_eq_lastPiece {item : Item} {ended : Bool} (h : ended = true ↔ item.quantity ≤ 1) :
    (if (ended && item.uses.autoDestroy) = true then ConsumeOutcome.destroy else .success) =
      lastPiece item := by
  unfold lastPiece
  congr 1
  rw [Bool.and_eq_true, h, and_comm]

theorem countersAfter_change (item : Item) (r : ConsumptionRequest) :
    CounterChange item r (countersAfter item r) := by
  have piece : (decide (item.quantity ≤ 1)) = true ↔ item.quantity ≤ 1 := decide_eq_true_iff
  have charge : (decide (item.quantity - 1 < 1)) = true ↔ item.quantity ≤ 1 := by
    rw [decide_eq_true_iff]
    omega
  have next : 1 ≤ item.quantity - 1 ↔ 1 < item.quantity := by omega
  unfold countersAfter
  simp only [ended_eq_lastPiece piece, ended_eq_lastPiece charge, next]
  cases tracked : item.uses.isConfigured with
  | false =>
    cases charges : r.useCharges with
    | false =>
      cases quantity : r.useQuantity with
      | false => exact .nothing (Or.inl quantity) fun h => absurd (charges.symm.trans h) (by decide)
      | true => exact .piece charges quantity
    | true => simpa using .nothing (Or.inr charges) fun _ => tracked
  | true =>
    cases charges : r.useCharges with
    | false =>
      cases quantity : r.useQuantity with
      | false => exact .nothing (Or.inl quantity) fun h => absurd (charges.symm.trans h) (by decide)
      | true => exact .piece charges quantity
    | true =>
      cases quantity : r.useQuantity with
      | false => exact .charge tracked charges quantity
      | true =>
        by_cases last : item.uses.value - 1 < 1
        · simpa [last] using CounterChange.lastCharge tracked charges quantity (by omega)
        · simpa [last] using CounterChange.chargeOfPiece tracked charges quantity (by omega)

namespace CounterChange

variable {item : Item} {r : ConsumptionRequest} {after : Nat × Nat × ConsumeOutcome}

theorem quantity_le (h : CounterChange item r after) : after.2.1 ≤ item.quantity := by
  cases h with
  | charge => exact Nat.le_refl _
  | piece => exact Nat.sub_le _ _
  | chargeOfPiece => exact Nat.le_refl _
  | lastCharge => exact Nat.sub_le _ _
  | nothing => exact Nat.le_refl _

theorem uses_le_max (h : CounterChange item r after) (full : item.uses.value ≤ item.uses.max) :
    after.1 ≤ item.uses.max := by
  cases h with
  | charge => exact Nat.le_trans (Nat.sub_le _ _) full
  | piece => exact full
  | chargeOfPiece => exact Nat.le_trans (Nat.sub_le _ _) full
  | lastCharge =>
    dsimp only
    split
    · exact Nat.le_refl _
    · exact Nat.zero_le _
  | nothing => exact full

/-- Only what is asked for by quantity can end, and then there is nothing left of it. -/
theorem of_destroy (h : CounterChange item r after) (destroyed : after.2.2 = .destroy) :
    item.uses.autoDestroy = true ∧ r.useQuantity = true ∧ after.2.1 = 0 := by
  cases h with
  | charge => cases destroyed
  | piece _ quantity =>
    obtain ⟨auto, last⟩ := lastPiece_eq_destroy_iff.1 destroyed
    exact ⟨auto, quantity, Nat.sub_eq_zero_of_le last⟩
  | chargeOfPiece => cases destroyed
  | lastCharge _ _ quantity =>
    obtain ⟨auto, last⟩ := lastPiece_eq_destroy_iff.1 destroyed
    exact ⟨auto, quantity, Nat.sub_eq_zero_of_le last⟩
  | nothing => cases destroyed

/-- An item that loses its last piece ends, if it is one that ends. -/
theorem destroys (h : CounterChange item r after) (had : 0 < item.quantity)
    (gone : after.2.1 = 0) (auto : item.uses.autoDestroy = true) : after.2.2 = .destroy := by
  cases h with
  | charge => exact absurd gone (Nat.ne_of_gt had)
  | piece => exact lastPiece_eq_destroy_iff.2 ⟨auto, Nat.le_of_sub_eq_zero gone⟩
  | chargeOfPiece => exact absurd gone (Nat.ne_of_gt had)
  | lastCharge => exact lastPiece_eq_destroy_iff.2 ⟨auto, Nat.le_of_sub_eq_zero gone⟩
  | nothing => exact absurd gone (Nat.ne_of_gt had)

end CounterChange

/-- Whether an item that recharges is charged. -/
def Charged (item : Item) : Prop := item.recharge.any (·.charged) = true

theorem charged_of_spend {item : Item} {r : ConsumptionRequest} (h : Charged (spend item r).1) :
    Charged item := by
  have spent : (spend item r).1.recharge =
      if r.useRecharge then item.recharge.map fun x => { x with charged := false }
      else item.recharge := rfl
  unfold Charged at *
  rw [spent] at h
  split at h
  · simp [Option.any_map] at h
  · exact h

/-! ## One call -/

/-- A consumer of linked resources with the items that it was asked for, in order. -/
structure Asked (η : Type) where
  consumer : η
  items : List Item

/-- One call of the ledger, with the item before it and as it is left. -/
structure Call where
  before : Item
  request : ConsumptionRequest
  /-- The items that the consumer was asked for. -/
  asked : List Item
  result : Except RollError ConsumeOutcome
  after : Item

section

variable {η : Type} [ResourceConsumer η]

instance : ResourceConsumer (Asked η) where
  consume item a :=
    let (granted, consumer) := ResourceConsumer.consume item a.consumer
    (granted, ⟨consumer, a.items ++ [item]⟩)

/-- A call, and the consumer after it. -/
def call (item : Item) (r : ConsumptionRequest) (consumer : η) : Call × η :=
  let (result, account) := perform (pay r) ⟨item, consumer⟩
  let (_, record) := perform (pay r) (⟨item, ⟨consumer, []⟩⟩ : Account (Asked η))
  (⟨item, r, record.consumer.items, result, account.item⟩, account.consumer)

/-- The calls of a history, each with the item that the call before it left. -/
def history (item : Item) (consumer : η) : List ConsumptionRequest → List Call
  | [] => []
  | r :: requests =>
    let (c, consumer) := call item r consumer
    c :: history c.after consumer requests

variable (item : Item) (r : ConsumptionRequest) (consumer : η)

theorem perform_consume :
    perform (consume item r) consumer =
      let (result, account) := perform (pay r) ⟨item, consumer⟩
      (result.map fun outcome => (account.item, outcome), account.consumer) := rfl

/-- What is asked for was there and was granted, and then it is spent. -/
theorem perform_consume_ok_iff {consumer' : η} {left : Item} {outcome : ConsumeOutcome} :
    perform (consume item r) consumer = (.ok (left, outcome), consumer') ↔
      preflight item r = .ok () ∧ askConsumer item r consumer = (true, consumer') ∧
        (left, outcome) = spend item r := by
  rw [perform_consume, perform_pay]
  cases preflight item r with
  | error e =>
    constructor
    · rintro ⟨⟩
    · rintro ⟨⟨⟩, -⟩
  | ok u =>
    rcases askConsumer item r consumer with ⟨granted, after⟩
    cases granted with
    | false =>
      constructor
      · rintro ⟨⟩
      · rintro ⟨-, ⟨⟩, -⟩
    | true =>
      constructor
      · rintro ⟨⟩
        exact ⟨rfl, rfl, rfl⟩
      · rintro ⟨-, ⟨⟩, spent⟩
        cases spent
        rfl

/-- What a call comes to: it is refused by the checks, or by the consumer, or it spends. -/
inductive CallCases : Call → Prop
  | unaffordable {e : RollError} (checked : preflight item r = .error e) :
      CallCases ⟨item, r, [], .error e, item⟩
  | refused (checked : preflight item r = .ok ()) (asks : asksConsumer item r = true)
      (answer : (ResourceConsumer.consume item consumer).1 = false) :
      CallCases ⟨item, r, [item], .error (.resourceConsumptionRefused item.name), item⟩
  | spent (checked : preflight item r = .ok ())
      (answer : asksConsumer item r = true → (ResourceConsumer.consume item consumer).1 = true) :
      CallCases ⟨item, r, if asksConsumer item r then [item] else [], .ok (spend item r).2,
        (spend item r).1⟩

theorem call_cases : CallCases item r consumer (call item r consumer).1 := by
  unfold call
  simp only [perform_pay]
  cases checked : preflight item r with
  | error e => exact .unaffordable checked
  | ok u =>
    unfold askConsumer
    cases asks : asksConsumer item r with
    | false =>
      have spent : CallCases item r consumer _ := .spent checked fun h => absurd h (by simp [asks])
      simp only [asks] at spent
      exact spent
    | true =>
      simp only [ResourceConsumer.consume, if_true]
      cases answer : (ResourceConsumer.consume item consumer).1 with
      | false => exact .refused checked asks answer
      | true =>
        have spent : CallCases item r consumer _ := .spent checked fun _ => answer
        simp only [asks] at spent
        exact spent

end

/-! ## Histories -/

/-- What holds of a call, whatever happened before it. -/
structure Call.Lawful (c : Call) : Prop where
  failed : ∀ e, c.result = .error e → c.after = c.before
  askedOnce : c.asked = [] ∨ c.asked = [c.before]
  asked : c.asked ≠ [] ↔ preflight c.before c.request = .ok () ∧
    c.request.useLinkedResource = true ∧ c.before.consume.isSome = true
  changed : ∀ outcome, c.result = .ok outcome → c.before.SameButCounters c.after
  /-- The checks pass exactly if the call succeeds with a consumer that agrees. -/
  checked : ∀ (ζ : Type) [ResourceConsumer ζ] (agreeing : ζ),
    (ResourceConsumer.consume c.before agreeing).1 = true →
    (preflight c.before c.request = .ok () ↔
      ∃ spent, (perform (consume c.before c.request) agreeing).1 = .ok spent)
  quantity : c.after.quantity ≤ c.before.quantity
  charged : Charged c.after → Charged c.before
  destroyed : c.result = .ok .destroy →
    c.before.uses.autoDestroy = true ∧ c.request.useQuantity = true ∧ c.after.quantity = 0
  usedUp : 0 < c.before.quantity → c.after.quantity = 0 → c.before.uses.autoDestroy = true →
    c.result = .ok .destroy

/-- Uses within their maximum. -/
def WithinMax (item : Item) : Prop := item.uses.value ≤ item.uses.max

section

variable {η : Type} [ResourceConsumer η]

theorem preflight_eq_ok_iff (item : Item) (r : ConsumptionRequest) {agreeing : η}
    (agrees : (ResourceConsumer.consume item agreeing).1 = true) :
    preflight item r = .ok () ↔ ∃ spent, (perform (consume item r) agreeing).1 = .ok spent := by
  constructor
  · intro checked
    have granted : askConsumer item r agreeing = (true, (askConsumer item r agreeing).2) := by
      unfold askConsumer
      split
      · exact Prod.ext agrees rfl
      · rfl
    have paid := (perform_consume_ok_iff item r agreeing).2 ⟨checked, granted, rfl⟩
    exact ⟨_, congrArg Prod.fst paid⟩
  · rintro ⟨⟨left, outcome⟩, succeeded⟩
    have paid : perform (consume item r) agreeing = (.ok (left, outcome), _) :=
      Prod.ext succeeded rfl
    exact ((perform_consume_ok_iff item r agreeing).1 paid).1

/-- A call that fails leaves everything as it was; what is left to say is whom it asked. -/
theorem Call.lawful_of_error {item : Item} {r : ConsumptionRequest} {asked : List Item}
    {e : RollError} (once : asked = [] ∨ asked = [item])
    (asks : asked ≠ [] ↔ preflight item r = .ok () ∧
      r.useLinkedResource = true ∧ item.consume.isSome = true) :
    Call.Lawful ⟨item, r, asked, .error e, item⟩ where
  failed _ _ := rfl
  askedOnce := once
  asked := asks
  changed _ h := by cases h
  checked _ _ _ agrees := preflight_eq_ok_iff item r agrees
  quantity := Nat.le_refl _
  charged := id
  destroyed h := by cases h
  usedUp had gone := absurd gone (Nat.ne_of_gt had)

theorem CallCases.lawful {item : Item} {r : ConsumptionRequest} {consumer : η} {c : Call}
    (h : CallCases item r consumer c) : c.Lawful := by
  cases h with
  | unaffordable checked => exact Call.lawful_of_error (Or.inl rfl) (by simp [checked])
  | refused checked asks _ =>
    exact Call.lawful_of_error (Or.inr rfl) (by simpa [checked] using asksConsumer_iff.1 asks)
  | spent checked _ =>
    have change := countersAfter_change item r
    exact {
      failed := fun _ h => by cases h
      askedOnce := by
        dsimp only
        split
        · exact Or.inr rfl
        · exact Or.inl rfl
      asked := by
        rw [← asksConsumer_iff, and_iff_right checked]
        simp
      changed := fun _ _ => spend_sameButCounters item r
      checked := fun _ _ _ agrees => preflight_eq_ok_iff item r agrees
      quantity := change.quantity_le
      charged := charged_of_spend
      destroyed := fun h => change.of_destroy (Except.ok.inj h)
      usedUp := fun had gone auto => congrArg Except.ok (change.destroys had gone auto) }

theorem CallCases.withinMax {item : Item} {r : ConsumptionRequest} {consumer : η} {c : Call}
    (h : CallCases item r consumer c) (within : WithinMax item) : WithinMax c.after := by
  cases h with
  | unaffordable => exact within
  | refused => exact within
  | spent => exact (countersAfter_change item r).uses_le_max within

/-- Over a history every call is lawful, uses that were within their maximum stay so, and neither
pieces nor the charge of a recharging item come back. -/
theorem history_lawful (item : Item) (consumer : η) (requests : List ConsumptionRequest) :
    (history item consumer requests).map (·.request) = requests ∧
    ∀ c ∈ history item consumer requests, c.Lawful ∧
      (WithinMax item → WithinMax c.after) ∧
      c.after.quantity ≤ item.quantity ∧ (Charged c.after → Charged item) := by
  induction requests generalizing item consumer with
  | nil => exact ⟨rfl, List.forall_mem_nil _⟩
  | cons r requests ih =>
    have cases := call_cases item r consumer
    have lawful := cases.lawful
    obtain ⟨requested, later⟩ := ih (call item r consumer).1.after (call item r consumer).2
    refine ⟨congrArg (r :: ·) requested, List.forall_mem_cons.2 ⟨?_, fun c mem => ?_⟩⟩
    · exact ⟨lawful, cases.withinMax, lawful.quantity, lawful.charged⟩
    · obtain ⟨held, within, quantity, charged⟩ := later c mem
      exact ⟨held, fun h => within (cases.withinMax h), Nat.le_trans quantity lawful.quantity,
        fun h => lawful.charged (charged h)⟩

end

/-- Two wands of one charge each that recharge and burn oil. -/
def wands : Item where
  id := "wand"
  name := "Wand"
  kind := .consumable
  uses := { value := 1, max := 1, autoDestroy := true }
  quantity := 2
  recharge := some ⟨5, true⟩
  consume := some ⟨.material, "oil", 1⟩

def burnPiece : ConsumptionRequest :=
  { useCharges := true, useQuantity := true, useLinkedResource := true }

/-- The first use takes the recharge with it, and the last wand ends with the third call. -/
theorem wands_history :
    let calls := history wands { allowConsumption := true : StaticHost }
      [{ burnPiece with useRecharge := true }, { burnPiece with useRecharge := true }, burnPiece,
        burnPiece]
    calls.map (·.result) = [.ok .success, .error (.notRecharged "Wand"), .ok .destroy,
      .error (.insufficientUses "Wand")] ∧
    calls.map (·.asked.length) = [1, 0, 1, 0] ∧
    ∃ c ∈ calls, c.result = .ok .destroy ∧ c.Lawful ∧ WithinMax c.after ∧
      c.after.quantity ≤ wands.quantity := by
  intro calls
  have third : ∃ c, calls[2]? = some c ∧ c.result = .ok .destroy := ⟨_, rfl, rfl⟩
  obtain ⟨c, found, destroyed⟩ := third
  have mem : c ∈ calls := List.mem_of_getElem? found
  obtain ⟨lawful, within, quantity, -⟩ := (history_lawful wands _ _).2 c mem
  have full : WithinMax wands := Nat.le_refl 1
  exact ⟨rfl, rfl, c, mem, destroyed, lawful, within full, quantity⟩

end Tabletop.Ledger
