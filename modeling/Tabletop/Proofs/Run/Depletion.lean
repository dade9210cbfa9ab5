import Mathlib.Data.Prod.Lex
import Tabletop.Proofs.Run.Consumption
/-!
# Using items up

An item that is used by the piece gets less: its pieces, and then its uses, fall with every use, and
so the uses come to an end. There is one exception. A request for pieces and charges spends neither
if the uses of the item are not tracked, and an item without a maximum stops tracking its uses when
the last one is spent. From then on it is used over and over again, and nothing is refused.
-/

namespace Tabletop.Ledger

/-- The pieces and the uses of an item; pieces come first where two items are compared. -/
def stock (item : Item) : ℕ ×ₗ ℕ := toLex (item.quantity, item.uses.value)

/-- A bound of the uses by the piece: each piece has at most its maximum of charges, and its own end
counts as one more use. -/
def allowance (item : Item) : Nat := item.quantity * (item.uses.max + 1) + item.uses.value

/-- Whether a request asks for charges of an item that does not track them. -/
def uncounted (item : Item) (r : ConsumptionRequest) : Bool :=
  r.useCharges && !item.uses.isConfigured

theorem stock_lt_iff {a b : Item} :
    stock a < stock b ↔
      a.quantity < b.quantity ∨ a.quantity = b.quantity ∧ a.uses.value < b.uses.value :=
  Prod.Lex.toLex_lt_toLex

theorem stock_eq_iff {a b : Item} :
    stock a = stock b ↔ a.quantity = b.quantity ∧ a.uses.value = b.uses.value := by
  unfold stock
  rw [toLex_inj, Prod.mk.injEq]

/-- A piece less outweighs the charges that the next one brings. -/
theorem allowance_lt_of_stock_lt {a b : Item} (max : a.uses.max = b.uses.max)
    (uses : a.uses.value ≤ b.uses.value ∨ a.uses.value ≤ b.uses.max) (h : stock a < stock b) :
    allowance a < allowance b := by
  unfold allowance
  rw [max]
  rcases stock_lt_iff.1 h with fewer | ⟨same, less⟩
  · have pieces : (a.quantity + 1) * (b.uses.max + 1) ≤ b.quantity * (b.uses.max + 1) :=
      Nat.mul_le_mul_right _ fewer
    rw [Nat.succ_mul] at pieces
    omega
  · rw [same]
    omega

theorem allowance_le_of_stock_le {a b : Item} (max : a.uses.max = b.uses.max)
    (uses : a.uses.value ≤ b.uses.value ∨ a.uses.value ≤ b.uses.max) (h : stock a ≤ stock b) :
    allowance a ≤ allowance b := by
  rcases h.lt_or_eq with less | same
  · exact Nat.le_of_lt (allowance_lt_of_stock_lt max uses less)
  · obtain ⟨quantity, value⟩ := stock_eq_iff.1 same
    simp [allowance, max, quantity, value]

/-! ## One use -/

section

variable {item : Item} {r : ConsumptionRequest}

/-- What is asked for by the piece is there: a piece, or a charge of the one that is in use. -/
theorem affordable_of_preflight (checked : preflight item r = .ok ())
    (pieces : r.useQuantity = true) (counted : uncounted item r = false) :
    (r.useCharges = false → 0 < item.quantity) ∧
      (r.useCharges = true → item.uses.value = 0 → 1 < item.quantity) := by
  constructor
  · intro charges
    by_contra none_left
    have empty : item.quantity = 0 := by omega
    simp [preflight, pieces, charges, empty] at checked
  · intro charges spent
    by_contra last
    have tracked : item.uses.isConfigured = true := by simpa [uncounted, charges] using counted
    have last : item.quantity ≤ 1 := by omega
    simp [preflight, pieces, charges, tracked, spent, last] at checked

namespace CounterChange

variable {after : Nat × Nat × ConsumeOutcome}

theorem uses_le (h : CounterChange item r after) :
    after.1 ≤ item.uses.value ∨ after.1 ≤ item.uses.max := by
  cases h with
  | charge => exact Or.inl (Nat.sub_le _ _)
  | piece => exact Or.inl (Nat.le_refl _)
  | chargeOfPiece => exact Or.inl (Nat.sub_le _ _)
  | lastCharge =>
    dsimp only
    split
    · exact Or.inr (Nat.le_refl _)
    · exact Or.inl (Nat.zero_le _)
  | nothing => exact Or.inl (Nat.le_refl _)

/-- Whatever is asked for, the counters do not rise. -/
theorem falls_or_stays (h : CounterChange item r after) :
    after.2.1 < item.quantity ∨ after.2.1 = item.quantity ∧ after.1 ≤ item.uses.value := by
  cases h with
  | charge => exact Or.inr ⟨rfl, Nat.sub_le _ _⟩
  | piece =>
    dsimp only
    omega
  | chargeOfPiece => exact Or.inr ⟨rfl, Nat.sub_le _ _⟩
  | lastCharge =>
    dsimp only
    split
    · omega
    · omega
  | nothing => exact Or.inr ⟨rfl, Nat.le_refl _⟩

/-- Where a use by the piece is counted, one of the counters falls. -/
theorem falls (h : CounterChange item r after) (checked : preflight item r = .ok ())
    (pieces : r.useQuantity = true) (counted : uncounted item r = false) :
    after.2.1 < item.quantity ∨ after.2.1 = item.quantity ∧ after.1 < item.uses.value := by
  obtain ⟨piece, charge⟩ := affordable_of_preflight checked pieces counted
  cases h with
  | charge _ _ unused => exact absurd (unused.symm.trans pieces) (by decide)
  | piece charges =>
    have some_left := piece charges
    dsimp only
    omega
  | chargeOfPiece =>
    dsimp only
    omega
  | lastCharge _ charges =>
    have next := charge charges
    dsimp only
    split
    · omega
    · omega
  | nothing unused untracked =>
    have charges : r.useCharges = true := by simpa [pieces] using unused
    simp [uncounted, charges, untracked charges] at counted

/-- Where it is not counted, neither of them changes. -/
theorem stays (h : CounterChange item r after) (free : uncounted item r = true) :
    after.2.1 = item.quantity ∧ after.1 = item.uses.value := by
  obtain ⟨charges, untracked⟩ : r.useCharges = true ∧ item.uses.isConfigured = false := by
    simpa [uncounted] using free
  cases h with
  | charge tracked => exact absurd (tracked.symm.trans untracked) (by decide)
  | piece unasked => exact absurd (unasked.symm.trans charges) (by decide)
  | chargeOfPiece tracked => exact absurd (tracked.symm.trans untracked) (by decide)
  | lastCharge tracked => exact absurd (tracked.symm.trans untracked) (by decide)
  | nothing => exact ⟨rfl, rfl⟩

end CounterChange

theorem stock_spend_le : stock (spend item r).1 ≤ stock item := by
  rcases (countersAfter_change item r).falls_or_stays with fewer | ⟨quantity, uses⟩
  · exact (stock_lt_iff.2 (Or.inl fewer)).le
  · rcases uses.lt_or_eq with less | same
    · exact (stock_lt_iff.2 (Or.inr ⟨quantity, less⟩)).le
    · exact (stock_eq_iff.2 ⟨quantity, same⟩).le

theorem stock_spend_lt (checked : preflight item r = .ok ()) (pieces : r.useQuantity = true)
    (counted : uncounted item r = false) : stock (spend item r).1 < stock item :=
  stock_lt_iff.2 ((countersAfter_change item r).falls checked pieces counted)

theorem stock_spend_eq (free : uncounted item r = true) :
    stock (spend item r).1 = stock item :=
  stock_eq_iff.2 ((countersAfter_change item r).stays free)

theorem allowance_spend_le : allowance (spend item r).1 ≤ allowance item :=
  allowance_le_of_stock_le rfl (countersAfter_change item r).uses_le stock_spend_le

theorem allowance_spend_lt (checked : preflight item r = .ok ()) (pieces : r.useQuantity = true)
    (counted : uncounted item r = false) : allowance (spend item r).1 < allowance item :=
  allowance_lt_of_stock_lt rfl (countersAfter_change item r).uses_le
    (stock_spend_lt checked pieces counted)

end

/-! ## Many uses -/

/-- Whether a call used a piece of its item, or a charge of one. -/
def Call.usesUp (c : Call) : Bool :=
  c.result.isOk && c.request.useQuantity && !uncounted c.before c.request

theorem Call.usesUp_ok {item after : Item} {r : ConsumptionRequest} {asked : List Item}
    {outcome : ConsumeOutcome} :
    (Call.mk item r asked (.ok outcome) after).usesUp = (r.useQuantity && !uncounted item r) := rfl

/-- Whether a call was refused for a reason that has nothing to do with what is left of its item. -/
def Call.hindered (c : Call) : Bool :=
  match c.result with
  | .error (.notRecharged _) => true
  | .error (.resourceConsumptionRefused _) => true
  | _ => false

/-- Whether the uses of an item are tracked even when none is left. -/
def keepsTrack (item : Item) : Bool := 0 < item.uses.max || item.uses.per.isSome

theorem counted_of_keepsTrack {item : Item} {r : ConsumptionRequest}
    (h : r.useCharges = true → keepsTrack item = true) : uncounted item r = false := by
  rw [Bool.eq_false_iff, ne_eq, uncounted, Bool.and_eq_true, Bool.not_eq_true']
  rintro ⟨charges, untracked⟩
  have kept := h charges
  simp only [Uses.isConfigured, keepsTrack, Bool.or_eq_false_iff, Bool.or_eq_true] at kept untracked
  obtain ⟨⟨-, max⟩, per⟩ := untracked
  simp [max, per] at kept

theorem preflight_error {item : Item} {r : ConsumptionRequest} {e : RollError}
    (h : preflight item r = .error e) :
    e = .insufficientUses item.name ∨ e = .notRecharged item.name := by
  unfold preflight at h
  grind

section

variable {η : Type} [ResourceConsumer η]

namespace CallCases

variable {item : Item} {r : ConsumptionRequest} {consumer : η} {c : Call}

theorem name_eq (h : CallCases item r consumer c) : c.after.name = item.name := by
  cases h <;> rfl

theorem keepsTrack_eq (h : CallCases item r consumer c) : keepsTrack c.after = keepsTrack item := by
  cases h <;> rfl

/-- A call that uses a piece, or a charge of one, leaves less to be used. -/
theorem allowance_le (h : CallCases item r consumer c) :
    allowance c.after + (if c.usesUp then 1 else 0) ≤ allowance item := by
  cases h with
  | unaffordable => exact Nat.le_refl _
  | refused => exact Nat.le_refl _
  | spent checked =>
    rw [Call.usesUp_ok]
    by_cases used : (r.useQuantity && !uncounted item r) = true
    · obtain ⟨pieces, counted⟩ : r.useQuantity = true ∧ uncounted item r = false := by
        simpa using used
      rw [if_pos used]
      exact allowance_spend_lt checked pieces counted
    · rw [if_neg used]
      exact allowance_spend_le

/-- What can become of a request that spends what it is counted by. -/
theorem outcome (h : CallCases item r consumer c) (pieces : r.useQuantity = true)
    (counted : uncounted item r = false) :
    c.usesUp = true ∨ c.hindered = true ∨ c.result = .error (.insufficientUses item.name) := by
  cases h with
  | unaffordable checked =>
    rcases preflight_error checked with rfl | rfl
    · exact Or.inr (Or.inr rfl)
    · exact Or.inr (Or.inl rfl)
  | refused => exact Or.inr (Or.inl rfl)
  | spent =>
    left
    rw [Call.usesUp_ok, pieces, counted]
    rfl

end CallCases

/-- However an item is used, what is used up by the piece stays within its allowance. -/
theorem countP_usesUp_le (item : Item) (consumer : η) (requests : List ConsumptionRequest) :
    (history item consumer requests).countP (·.usesUp) ≤ allowance item := by
  induction requests generalizing item consumer with
  | nil => exact Nat.zero_le _
  | cons r requests ih =>
    have later := ih (call item r consumer).1.after (call item r consumer).2
    have first := (call_cases item r consumer).allowance_le
    have calls : history item consumer (r :: requests) = (call item r consumer).1 ::
        history (call item r consumer).1.after (call item r consumer).2 requests := rfl
    rw [calls, List.countP_cons]
    omega

/-- Requests that stay counted are met, unless there is nothing left or they are hindered. -/
theorem history_outcome (item : Item) (consumer : η) (requests : List ConsumptionRequest)
    (pieces : ∀ r ∈ requests,
      r.useQuantity = true ∧ (r.useCharges = true → keepsTrack item = true)) :
    ∀ c ∈ history item consumer requests,
      c.usesUp = true ∨ c.hindered = true ∨ c.result = .error (.insufficientUses item.name) := by
  induction requests generalizing item consumer with
  | nil => exact List.forall_mem_nil _
  | cons r requests ih =>
    obtain ⟨⟨piece, kept⟩, others⟩ := List.forall_mem_cons.1 pieces
    have made := call_cases item r consumer
    refine List.forall_mem_cons.2 ⟨made.outcome piece (counted_of_keepsTrack kept), ?_⟩
    have later := ih (call item r consumer).1.after (call item r consumer).2
    rw [made.keepsTrack_eq, made.name_eq] at later
    exact later others

/-- Over any number of uses the pieces and the uses of an item fall with each one that asks for a
piece, unless it asks for charges that are not tracked, which costs nothing. So there are no more
such uses than the allowance, and more requests than that end in a refusal for want of uses if the
item keeps track of its charges, whatever else hinders some of them. -/
theorem history_depletes (item : Item) (consumer : η) :
    (∀ (r : ConsumptionRequest) (left : Item) (outcome : ConsumeOutcome) (consumer' : η),
      r.useQuantity = true → perform (consume item r) consumer = (.ok (left, outcome), consumer') →
      (stock left < stock item ↔ ¬uncounted item r = true) ∧
      (uncounted item r = true → stock left = stock item)) ∧
    ∀ requests : List ConsumptionRequest,
      let calls := history item consumer requests
      calls.countP (·.usesUp) ≤ allowance item ∧
      ((∀ r ∈ requests, r.useQuantity = true ∧ (r.useCharges = true → keepsTrack item = true)) →
        allowance item < calls.countP (!·.hindered) →
        ∃ c ∈ calls, c.result = .error (.insufficientUses item.name)) := by
  constructor
  · intro r left outcome consumer' pieces succeeded
    obtain ⟨checked, -, spent⟩ := (perform_consume_ok_iff item r consumer).1 succeeded
    obtain rfl : left = (spend item r).1 := congrArg Prod.fst spent
    cases counted : uncounted item r with
    | false => exact ⟨by simp [stock_spend_lt checked pieces counted], fun h => by cases h⟩
    | true =>
      have same := stock_spend_eq counted
      exact ⟨by simp [same], fun _ => same⟩
  · intro requests calls
    have bounded := countP_usesUp_le item consumer requests
    refine ⟨bounded, fun pieces more => ?_⟩
    by_contra refused
    have used : ∀ c ∈ calls, (!c.hindered) = true → c.usesUp = true := by
      intro c mem free
      rcases history_outcome item consumer requests pieces c mem with used | hindered | none_left
      · exact used
      · simp [hindered] at free
      · exact absurd ⟨c, mem, none_left⟩ refused
    have all_used : calls.countP (!·.hindered) ≤ calls.countP (·.usesUp) :=
      List.countP_mono_left used
    exact absurd more (Nat.not_lt.2 (Nat.le_trans all_used bounded))

end

/-- Two wands of one charge each come to an end within six uses. -/
theorem wands_deplete :
    let calls := history wands ({} : StaticHost) (.replicate 6 burnPiece)
    (∃ left host,
      perform (consume wands burnPiece) ({} : StaticHost) = (.ok (left, .success), host) ∧
      stock left < stock wands) ∧
    calls.countP (·.usesUp) ≤ 5 ∧
    ∃ c ∈ calls, c.result = .error (.insufficientUses "Wand") := by
  intro calls
  obtain ⟨one, many⟩ := history_depletes wands ({} : StaticHost)
  have used : perform (consume wands burnPiece) ({} : StaticHost) =
      (.ok ((spend wands burnPiece).1, .success), { consumed := ["wand"] }) := rfl
  obtain ⟨falls, -⟩ := one burnPiece _ _ _ rfl used
  obtain ⟨bounded, ends⟩ := many (.replicate 6 burnPiece)
  have pieces : ∀ r ∈ List.replicate 6 burnPiece,
      r.useQuantity = true ∧ (r.useCharges = true → keepsTrack wands = true) := by decide
  have unhindered : allowance wands < calls.countP (!·.hindered) := by decide +kernel
  exact ⟨⟨_, _, used, falls.2 (by decide)⟩, bounded, ends pieces unhindered⟩

/-- A candle that burns once, and of which nothing says how often it could. -/
def candle : Item where
  id := "candle"
  name := "Candle"
  kind := .consumable
  uses := { value := 1 }

def byPiece : ConsumptionRequest := { useCharges := true, useQuantity := true }

/-- A candle that is burnt down has no charge and no piece left, and can still be used forever. -/
theorem burntCandle_never_ends :
    ∃ burnt, perform (consume candle byPiece) ({} : StaticHost) = (.ok (burnt, .success), {}) ∧
      burnt.quantity = 0 ∧ burnt.uses.value = 0 ∧
      perform (consume burnt byPiece) ({} : StaticHost) = (.ok (burnt, .success), {}) ∧
      ¬stock burnt < stock burnt ∧
      ∀ n, ∀ c ∈ history burnt ({} : StaticHost) (.replicate n byPiece),
        c.result = .ok .success := by
  refine ⟨(spend candle byPiece).1, rfl, rfl, rfl, rfl, lt_irrefl _, fun n => ?_⟩
  induction n with
  | zero => exact List.forall_mem_nil _
  | succ n ih => exact List.forall_mem_cons.2 ⟨rfl, ih⟩

end Tabletop.Ledger
