import Tabletop.Proofs.Run.Phases
import Tabletop.Proofs.Sheet.Actor
/-!
# What a run changes

A run that succeeds writes to one item, to one pool of slots, and to the host. All of that is decided
from the item as it was before the dice; `run_ok_effect` says what the table looks like afterwards,
for a host with fixed answers.
-/

namespace Tabletop

open Playing

/-! ## The item and the slot -/

/-- Two items that are equal but for what is left of them. -/
structure Item.SameButCounters (item left : Item) : Prop where
  rest : left = { item with
    uses := { item.uses with value := left.uses.value }
    quantity := left.quantity
    recharge := left.recharge }
  recharge : left.recharge.map (·.value) = item.recharge.map (·.value)

theorem spend_sameButCounters (item : Item) (r : ConsumptionRequest) :
    item.SameButCounters (Ledger.spend item r).1 := by
  refine ⟨rfl, ?_⟩
  unfold Ledger.spend
  cases r.useRecharge with
  | false => rfl
  | true => cases item.recharge <;> rfl

theorem Actor.Holds.afterUse {actor : Actor} {before after : List Item} {item left : Item}
    (h : actor.Holds item.id before item after) (same : left.id = item.id)
    (slot : Option SlotLevel) (outcome : ConsumeOutcome) :
    actor.afterUse left slot outcome = { actor with
      spells := slot.elim actor.spells fun slot =>
        (actor.spells.spend? slot).elim actor.spells (·.2)
      items := before ++ if outcome = .destroy then after else left :: after } := by
  unfold Actor.afterUse
  rw [same, h.modifyItem]
  by_cases destroyed : outcome = .destroy
  · rw [if_pos destroyed, if_pos destroyed]
    -- what is left of the item stands where the item stood, and so it is what is removed
    have kept (spells : SpellSlots) :
        ({ actor with items := before ++ left :: after, spells } : Actor).Holds item.id before left
          after := ⟨rfl, same, h.first⟩
    exact (kept _).removeItem
  · rw [if_neg destroyed, if_neg destroyed]

/-! ## The choice of a slot -/

namespace Item

/-- Whether an item is a spell that needs a slot which no parameter names. -/
def NeedsSlot (item : Item) (params : RollParams) : Prop :=
  item.kind = .spell ∧ 0 < item.level ∧ params.slotLevel = none

instance (item : Item) (params : RollParams) : Decidable (item.NeedsSlot params) :=
  inferInstanceAs (Decidable (_ ∧ _ ∧ _))

/-- Whether the template of an item is placed, after a slot was chosen if one was needed. -/
def CoversArea (item : Item) (params : RollParams) (choice : Option SlotChoice) : Prop :=
  item.areaTarget = true ∧
    if item.NeedsSlot params then choice.any (·.placeTemplate) = true
    else params.useTemplate = true ∧ (item.kind = .feat ∨ item.kind = .spell ∧ item.level = 0)

instance (item : Item) (params : RollParams) (choice : Option SlotChoice) :
    Decidable (item.CoversArea params choice) :=
  inferInstanceAs (Decidable (_ ∧ ite _ _ _))

variable {item : Item} {params : RollParams} {actor : Actor} {host host' : StaticHost}
  {cast : Option SpellCast}

theorem asksSlot_iff : item.asksSlot params = true ↔ item.NeedsSlot params := by
  unfold asksSlot NeedsSlot
  cases params.slotLevel with
  | none => simp [Nat.pos_iff_ne_zero]
  | some level => simp

theorem castChosen_ok {choice : SlotChoice} {cast : SpellCast}
    (h : item.castChosen actor choice = .ok cast) :
    (choice.consumeSlot = true → (actor.spells.remaining? choice.level).getD 0 ≠ 0) ∧
      cast.spend = (if choice.consumeSlot then some choice.level else none) ∧
      cast.placeTemplate = choice.placeTemplate := by
  unfold castChosen at h
  simp only [Bool.and_eq_true, decide_eq_true_eq] at h
  by_cases spent : choice.consumeSlot = true ∧ (actor.spells.remaining? choice.level).getD 0 = 0
  · rw [if_pos spent] at h
    cases h
  · rw [if_neg spent] at h
    cases h
    exact ⟨fun consumes empty => spent ⟨consumes, empty⟩, rfl, rfl⟩

/-- A spell that needs a slot is cast as it was chosen. -/
theorem cast_of_needsSlot (needs : item.NeedsSlot params)
    (h : castWith item params actor host = (.ok cast, host')) :
    ∃ choice, host.slotChoice = some choice ∧
      (choice.consumeSlot = true → (actor.spells.remaining? choice.level).getD 0 ≠ 0) ∧
      cast.bind (·.spend) = (if choice.consumeSlot then some choice.level else none) ∧
      item.placesTemplate params cast = (item.areaTarget && choice.placeTemplate) := by
  unfold castWith at h
  rw [if_pos (asksSlot_iff.2 needs)] at h
  have answer := (Prod.mk.inj h).1
  have chooses : (RollHost.choose item host).1 = host.slotChoice := rfl
  rw [chooses] at answer
  cases chosen : host.slotChoice with
  | none =>
    rw [chosen] at answer
    cases answer
  | some choice =>
    rw [chosen] at answer
    simp only at answer
    cases made : item.castChosen actor choice with
    | error e =>
      rw [made] at answer
      cases answer
    | ok c =>
      rw [made] at answer
      cases answer
      obtain ⟨positive, spends, places⟩ := castChosen_ok made
      exact ⟨choice, rfl, positive, spends, by simp [placesTemplate, places]⟩

/-- Any other item spends no slot, and its template is up to the parameters. -/
theorem cast_of_not_needsSlot (needs : ¬item.NeedsSlot params)
    (h : castWith item params actor host = (.ok cast, host')) :
    cast.bind (·.spend) = none ∧
      item.placesTemplate params cast =
        (item.areaTarget && (params.useTemplate && item.templateOnRequest)) := by
  unfold castWith at h
  rw [if_neg (mt asksSlot_iff.1 needs)] at h
  cases h
  unfold castUnasked? placesTemplate
  by_cases spell : item.kind = .spell
  · rw [if_pos spell]
    cases given : params.slotLevel with
    | some level => exact ⟨rfl, rfl⟩
    | none =>
      have cantrip : item.level = 0 :=
        Nat.eq_zero_of_not_pos fun leveled => needs ⟨spell, leveled, given⟩
      simp [templateOnRequest, spell, cantrip]
  · rw [if_neg spell]
    exact ⟨rfl, rfl⟩

theorem coversArea_iff (h : castWith item params actor host = (.ok cast, host')) :
    item.placesTemplate params cast = true ↔ item.CoversArea params host.slotChoice := by
  unfold CoversArea
  by_cases needs : item.NeedsSlot params
  · obtain ⟨choice, chosen, -, -, places⟩ := cast_of_needsSlot needs h
    rw [places, chosen, if_pos needs, Bool.and_eq_true]
    rfl
  · obtain ⟨-, places⟩ := cast_of_not_needsSlot needs h
    rw [places, if_neg needs]
    simp [templateOnRequest]

end Item

/-! ## Runs -/

/-- What a run with a host of fixed answers has changed: `left` is what is left of the item, and
`spells` are the slots afterwards. -/
structure RunEffect {σ : Type} (itemId : String) (params : RollParams) (consumption : ConsumeOutcome)
    (t t' : Table σ StaticHost) (before : List Item) (item : Item) (after : List Item) (left : Item)
    (spells : SpellSlots) : Prop where
  held : t.actor.Holds itemId before item after
  counters : item.SameButCounters left
  actor : t'.actor = { t.actor with
    spells
    items := before ++ if consumption = .destroy then after else left :: after }
  asked : item.NeedsSlot params → t.host.slotChoice.isSome
  spent : ∀ choice, item.NeedsSlot params → t.host.slotChoice = some choice →
    choice.consumeSlot = true → t.actor.spells.Spends spells choice.level
  kept : (item.NeedsSlot params → ∀ choice, t.host.slotChoice = some choice →
    choice.consumeSlot = false) → spells = t.actor.spells
  host : t'.host = { t.host with
    dialogs := t.host.dialogs + if item.NeedsSlot params then 1 else 0
    consumed := t.host.consumed ++
      if params.consume.useLinkedResource = true ∧ item.consume.isSome = true then [item.id] else []
    placed := t.host.placed ++
      if item.CoversArea params t.host.slotChoice then [item.id] else [] }

/-- The slots of an actor after an item was cast with the slot that was chosen for it. -/
theorem slots_of_cast {item : Item} {params : RollParams} {actor : Actor} {host host' : StaticHost}
    {cast : Option SpellCast} (h : castWith item params actor host = (.ok cast, host')) :
    let spells := (cast.bind (·.spend)).elim actor.spells fun slot =>
      (actor.spells.spend? slot).elim actor.spells (·.2)
    (item.NeedsSlot params → host.slotChoice.isSome) ∧
      (∀ choice, item.NeedsSlot params → host.slotChoice = some choice →
        choice.consumeSlot = true → actor.spells.Spends spells choice.level) ∧
      ((item.NeedsSlot params → ∀ choice, host.slotChoice = some choice →
        choice.consumeSlot = false) → spells = actor.spells) := by
  by_cases needs : item.NeedsSlot params
  · obtain ⟨choice, chosen, positive, spends, -⟩ := Item.cast_of_needsSlot needs h
    simp only [spends, chosen]
    refine ⟨fun _ => rfl, ?_, ?_⟩
    · rintro _ - ⟨⟩ consumes
      obtain ⟨left, spells, used, spends⟩ := SpellSlots.spends_of_positive (positive consumes)
      rw [if_pos consumes, Option.elim_some, used, Option.elim_some]
      exact spends
    · intro kept
      simp [kept needs choice rfl]
  · obtain ⟨spends, -⟩ := Item.cast_of_not_needsSlot needs h
    simp only [spends]
    exact ⟨fun h => absurd h needs, fun _ h => absurd h needs, fun _ => rfl⟩

theorem asksConsumer_iff {item : Item} {r : ConsumptionRequest} :
    Ledger.asksConsumer item r = true ↔ r.useLinkedResource = true ∧ item.consume.isSome = true :=
  Bool.and_eq_true_iff

theorem settle_static {p : Preparation} {params : RollParams} {actor actor' : Actor}
    {host host' : StaticHost} {outcome : ConsumeOutcome}
    (h : p.settle params actor host = (.ok (outcome, actor'), host')) :
    host' = { host with
      consumed := host.consumed ++
        if params.consume.useLinkedResource = true ∧ p.item.consume.isSome = true then [p.item.id]
        else []
      placed := host.placed ++
        if p.item.placesTemplate params p.cast = true then [p.item.id] else [] } := by
  obtain ⟨host₁, asked, -, -, rfl⟩ := settle_eq_ok_iff.1 h
  rw [askConsumer_static] at asked
  obtain ⟨granted, rfl⟩ := Prod.mk.inj asked
  have spent : (Ledger.asksConsumer p.item params.consume && host.allowConsumption) =
      Ledger.asksConsumer p.item params.consume := by
    cases asks : Ledger.asksConsumer p.item params.consume with
    | false => rfl
    | true =>
      rw [asks] at granted
      simpa using granted.symm
  simp only [spent, asksConsumer_iff]
  split
  · rfl
  · simp only [List.append_nil]

/-- The exact effect of a run that succeeds. -/
theorem run_ok_effect {σ : Type} [RandomSource σ] (config : PipelineConfig) (itemId : String)
    (requests : List RollRequest) (params : RollParams) (t t' : Table σ StaticHost)
    (r : CompositeResult) (h : perform (run config itemId requests params) t = (.ok r, t')) :
    ∃ before item after left spells,
      RunEffect itemId params r.consumption t t' before item after left spells := by
  cases perform_run_eq_ok_iff.1 h with
  | @intro p host host' source entries q outcome actor prepared resolved settled =>
    have named := Actor.id_of_item? prepared.found
    obtain ⟨before, after, held⟩ := Actor.holds_of_item? prepared.found
    obtain ⟨asked, spent, kept⟩ := slots_of_cast prepared.configured
    obtain ⟨host₁, -, rfl, rfl, -⟩ := settle_eq_ok_iff.1 settled
    refine ⟨before, p.item, after, (Ledger.spend p.item params.consume).1, _, held,
      spend_sameButCounters _ _, (named ▸ held).afterUse (spend_id _ _) _ _, asked, spent, kept, ?_⟩
    have hosted := settle_static settled
    have configured : (castWith p.item params t.actor t.host).2 = _ := castWith_static p.item
    rw [prepared.configured] at configured
    simp only at configured
    rw [hosted, configured]
    simp only [Item.asksSlot_iff, Item.coversArea_iff prepared.configured]

/-- A spell on a scroll that is used up by its last charge. -/
def lastScroll : Item where
  id := "scroll"
  name := "Scroll"
  kind := .spell
  level := 2
  uses := { value := 1, max := 1, autoDestroy := true }
  consume := some ⟨.material, "ink", 1⟩
  areaTarget := true

/-- A table with two scrolls behind a stone, where a slot of the third level is chosen. -/
def scribe : Table ScriptedSource StaticHost where
  actor := {
    id := "scribe"
    name := "Scribe"
    spells := { levels := .replicate 9 ⟨2, 3⟩ }
    items := [{ id := "stone", name := "Stone", kind := .loot }, lastScroll, lastScroll] }
  source := .ofFaces []
  host := { slotChoice := some ⟨.level 3, true, true⟩ }

def readAloud : RollParams where
  consume := { useCharges := true, useQuantity := true, useLinkedResource := true }

/-- The first scroll is gone, and one slot of the third level is spent. -/
theorem scribe_effect :
    ∃ r t', perform (run {} "scroll" [.text "Light"] readAloud) scribe = (.ok r, t') ∧
      r.consumption = .destroy ∧ t'.actor.items.length = 2 ∧
      t'.actor.spells.values = [2, 2, 1, 2, 2, 2, 2, 2, 2, 0] ∧
      t'.host = { scribe.host with dialogs := 1, consumed := ["scroll"], placed := ["scroll"] } ∧
      ∃ before item after left spells,
        RunEffect "scroll" readAloud r.consumption scribe t' before item after left spells := by
  rcases done : perform (run {} "scroll" [.text "Light"] readAloud) scribe with ⟨e | r, t'⟩
  · cases done
  · have effect := run_ok_effect {} "scroll" [.text "Light"] readAloud scribe t' r done
    cases done
    exact ⟨_, _, rfl, rfl, rfl, by decide, rfl, effect⟩

end Tabletop
