import Mathlib
import Tabletop.Proofs.Run.Depletion
import Tabletop.Proofs.Run.Expansion
/-!
# Quick rolls and the damage lines of their items

A quick roll leaves out what its item cannot do, but for damage: it asks for every line whose flag
is set, and the flags may be more than the lines. Whether its run is refused for a missing line is
therefore up to the flags alone, once the slot and the counters of the item are found to be in
order.
-/

namespace Tabletop

open Playing

/-- The places of the flags that are set, the first flag being at the given place. -/
def placesSet (place : Nat) (flags : List Bool) : List Nat :=
  ((flags.zipIdx place).filter (·.1)).map (·.2)

/-- The damage lines whose flags are set in a quick roll of the item. -/
def Item.flaggedLines (item : Item) (preset : Preset) : List Nat :=
  item.presets.elim [] fun presets => placesSet 0 (presets.flags preset).damage

/-- The flags of damage lines can be counted by words. -/
def Item.CountsFlags (item : Item) (preset : Preset) : Prop :=
  ∀ presets ∈ item.presets, (presets.flags preset).damage.length ≤ UInt64.size

/-- Whether the item can do what is asked for, its damage lines aside. Where it has no other formula
nothing is rolled for one. -/
def RollRequest.suits (item : Item) : RollRequest → Bool
  | .attack _ => item.isAttack
  | .check _ => item.isCheck
  | .saveDc _ => item.hasSave
  | .flavor none => item.chatFlavor.isSome
  | _ => true

/-! ## What is asked for -/

section

variable {item : Item} {preset : Preset}

theorem askedLines_damageRequests (versatile : Bool) {place : Nat} {flags : List Bool}
    (countable : place + flags.length ≤ UInt64.size) :
    (damageRequests versatile place flags).flatMap (·.askedLines item) = placesSet place flags := by
  induction flags generalizing place with
  | nil => rfl
  | cons flag flags ih =>
    rw [List.length_cons] at countable
    have rest : (damageRequests versatile (place + 1) flags).flatMap (·.askedLines item) =
        placesSet (place + 1) flags := ih (by omega)
    have word : (UInt64.ofNat place).toNat = place :=
      UInt64.toNat_ofNat_of_lt' (by omega)
    cases flag with
    | false => exact rest
    | true =>
      rw [damageRequests, if_pos rfl, List.flatMap_cons, rest]
      change [(UInt64.ofNat place).toNat] ++ _ = _
      rw [word]
      rfl

theorem askedLines_requestIf (condition : Bool) (request : RollRequest)
    (unasked : request.askedLines item = []) :
    (requestIf condition request).flatMap (·.askedLines item) = [] := by
  cases condition with
  | false => rfl
  | true => simpa [requestIf] using unasked

theorem askedLines_requests {flags : QuickRollFlags}
    (countable : flags.damage.length ≤ UInt64.size) :
    (flags.requests item).flatMap (·.askedLines item) = placesSet 0 flags.damage := by
  have lines : (damageRequests flags.versatile 0 flags.damage).flatMap (·.askedLines item) =
      placesSet 0 flags.damage := askedLines_damageRequests _ (by omega)
  simp only [QuickRollFlags.requests, List.flatMap_append, lines,
    askedLines_requestIf _ (.flavor none) rfl, askedLines_requestIf _ .description rfl,
    askedLines_requestIf _ (.attack {}) rfl, askedLines_requestIf _ (.check {}) rfl,
    askedLines_requestIf _ (.saveDc {}) rfl, askedLines_requestIf _ .other rfl,
    List.nil_append, List.append_nil]

/-- A quick roll asks for all damage lines whose flags are set. -/
theorem askedLines_quickRoll (countable : item.CountsFlags preset) :
    (item.quickRoll preset).2.flatMap (·.askedLines item) = item.flaggedLines preset := by
  unfold Item.quickRoll Item.flaggedLines
  cases found : item.presets with
  | none => rfl
  | some presets => exact askedLines_requests (countable presets found)

theorem mem_requestIf {condition : Bool} {request made : RollRequest}
    (h : made ∈ requestIf condition request) : condition = true ∧ made = request := by
  cases condition with
  | false => cases h
  | true => exact ⟨rfl, List.mem_singleton.1 h⟩

theorem suits_of_damageRequests {versatile : Bool} {place : Nat} {flags : List Bool}
    {request : RollRequest} (h : request ∈ damageRequests versatile place flags) :
    request.suits item = true := by
  induction flags generalizing place with
  | nil => cases h
  | cons flag flags ih =>
    cases flag with
    | false => exact ih h
    | true =>
      rcases List.mem_cons.1 h with rfl | behind
      · rfl
      · exact ih behind

/-- What a quick roll asks for the item can do, damage lines aside. -/
theorem suits_of_quickRoll {request : RollRequest} (h : request ∈ (item.quickRoll preset).2) :
    request.suits item = true := by
  unfold Item.quickRoll at h
  split at h
  · cases List.mem_singleton.1 h
    rfl
  · next presets _ =>
    simp only [QuickRollFlags.requests, List.mem_append] at h
    rcases h with (((((flavor | description) | attack) | check) | save) | damage) | other
    · obtain ⟨on, rfl⟩ := mem_requestIf flavor
      exact (Bool.and_eq_true_iff.1 on).2
    · obtain ⟨-, rfl⟩ := mem_requestIf description
      rfl
    · obtain ⟨on, rfl⟩ := mem_requestIf attack
      exact (Bool.and_eq_true_iff.1 on).2
    · obtain ⟨on, rfl⟩ := mem_requestIf check
      exact (Bool.and_eq_true_iff.1 on).2
    · obtain ⟨on, rfl⟩ := mem_requestIf save
      exact (Bool.and_eq_true_iff.1 on).2
    · exact suits_of_damageRequests damage
    · obtain ⟨-, rfl⟩ := mem_requestIf other
      rfl

end

/-! ## Runs that are refused for a line -/

section

variable {η : Type} [RollHost η] {item : Item} {itemId : String} {requests : List RollRequest}
  {params : RollParams} {actor : Actor} {host : η}

/-- Casting an item fails for its slot only. -/
theorem castWith_ne_line {name : String} {line lines : Nat} :
    (castWith item params actor host).1 ≠ .error (.damageIndexOutOfRange name line lines) := by
  unfold castWith
  split
  · split
    · nofun
    · next choice _ =>
      rw [Item.castChosen]
      by_cases spent :
          (choice.consumeSlot && (actor.spells.remaining? choice.level).getD 0 = 0) = true
      · rw [if_pos spent]
        nofun
      · rw [if_neg spent]
        nofun
  · nofun

/-- A preparation is refused for a line that is missed once all is found in order that is looked at
before. -/
theorem prepare_refused_iff (found : actor.item? itemId = some item) {name : String}
    {line lines : Nat} :
    (prepare itemId requests params actor host).1 =
        .error (.damageIndexOutOfRange name line lines) ↔
      (∃ cast, (castWith item params actor host).1 = .ok cast) ∧
      Ledger.preflight item params.consume = .ok () ∧
      Plan.expand requests item (item.ammo? actor params) params.versatile =
        .error (.damageIndexOutOfRange name line lines) := by
  unfold prepare
  simp only [found]
  constructor
  · intro h
    rcases bind_eq_error_iff.1 h with early | ⟨cast, configured, h⟩
    · exact absurd early castWith_ne_line
    rcases bind_eq_error_iff.1 h with early | ⟨⟨⟩, affordable, h⟩
    · rcases Ledger.preflight_error early with refused | refused
      · cases refused
      · cases refused
    rcases bind_eq_error_iff.1 h with unplanned | ⟨steps, -, h⟩
    · exact ⟨⟨cast, configured⟩, affordable, unplanned⟩
    · cases h
  · rintro ⟨⟨cast, configured⟩, affordable, unplanned⟩
    simp only [configured, affordable, unplanned]
    rfl

end

/-- A plan whose item has its own extra damage line is refused for the first line of the requests
that is missed. -/
theorem Plan.expand_refuses_iff {item : Item} {ammo : Option Item} {versatile : Bool}
    {requests : List RollRequest}
    (extra : ∀ line ∈ item.crit.extraDamage, line < item.damage.parts.length) {name : String}
    {line lines : Nat} :
    Plan.expand requests item ammo versatile = .error (.damageIndexOutOfRange name line lines) ↔
      (requests.flatMap (·.askedLines item)).find? (item.damage.parts.length ≤ ·) = some line ∧
        name = item.name ∧ lines = item.damage.parts.length := by
  have own : item.crit.extraDamage.toList.find? (item.damage.parts.length ≤ ·) = none := by
    rw [List.find?_eq_none]
    intro line mem
    simpa using extra line (Option.mem_toList.1 mem)
  rw [Plan.expand_eq, Plan.checkedLines, List.find?_append, own, Option.none_or]
  cases (requests.flatMap (·.askedLines item)).find? (item.damage.parts.length ≤ ·) with
  | none => simp
  | some missed => simp [eq_comm, and_left_comm]

section

variable {σ η : Type} [RandomSource σ] [RollHost η]

/-- A quick roll asks for every damage line whose flag is set, whether the item has it or not, and
for nothing else that the item cannot do. So its run is refused for a missing line exactly if a flag
behind the lines is set and nothing is amiss with the slot and the counters; it is refused for the
first such line. -/
theorem quickRoll_asks_flagged_lines {item : Item} {preset : Preset}
    (countable : item.CountsFlags preset) :
    (item.quickRoll preset).2.flatMap (·.askedLines item) = item.flaggedLines preset ∧
    (∀ request ∈ (item.quickRoll preset).2, request.suits item = true) ∧
    ∀ (config : PipelineConfig) (itemId : String) (t : Table σ η),
      t.actor.item? itemId = some item →
      (∀ line ∈ item.crit.extraDamage, line < item.damage.parts.length) →
      ∀ name line lines,
        (∃ t', perform (runPreset config itemId preset) t =
          (.error (.damageIndexOutOfRange name line lines), t')) ↔
        ((∃ cast, (castWith item (item.quickRoll preset).1 t.actor t.host).1 = .ok cast) ∧
          Ledger.preflight item (item.quickRoll preset).1.consume = .ok ()) ∧
        (item.flaggedLines preset).find? (item.damage.parts.length ≤ ·) = some line ∧
          name = item.name ∧ lines = item.damage.parts.length := by
  have asked := askedLines_quickRoll countable
  refine ⟨asked, fun request => suits_of_quickRoll, ?_⟩
  intro config itemId t found extra name line lines
  have whole : perform (runPreset config itemId preset) t =
      perform (run config itemId (item.quickRoll preset).2 (item.quickRoll preset).1) t := by
    unfold runPreset
    rw [perform_bind, perform_get]
    simp only [found]
  rw [whole, ← asked, ← Plan.expand_refuses_iff extra, and_assoc, ← prepare_refused_iff found]
  constructor
  · rintro ⟨t', refused⟩
    obtain ⟨host, unprepared, -⟩ := unprepared_of_early rfl refused
    exact congrArg Prod.fst unprepared
  · intro refused
    exact ⟨_, perform_run_eq_error_iff.2 (.preparing (Prod.ext refused rfl))⟩

end

/-- A cleaver with one damage line, and a quick roll with flags for two. -/
def cleaver : Item where
  id := "cleaver"
  name := "Cleaver"
  kind := .weapon
  damage := ⟨[⟨"1d8", none⟩], none⟩
  presets := some { primary := { damage := [true, true] } }

def kitchen : Table ScriptedSource StaticHost where
  actor := { id := "cook", name := "Cook", items := [cleaver] }
  source := .ofFaces [8]
  host := {}

/-- Both lines are asked for, and so the run is refused for the second one. -/
theorem cleaver_refused :
    cleaver.CountsFlags .primary ∧ kitchen.actor.item? "cleaver" = some cleaver ∧
    (cleaver.quickRoll .primary).2.flatMap (·.askedLines cleaver) = [0, 1] ∧
    ∃ t', perform (runPreset {} "cleaver" .primary) kitchen =
      (.error (.damageIndexOutOfRange "Cleaver" 1 1), t') := by
  have countable : cleaver.CountsFlags .primary := by
    rintro presets ⟨⟩
    decide
  have found : kitchen.actor.item? "cleaver" = some cleaver := rfl
  obtain ⟨asked, -, refused⟩ := quickRoll_asks_flagged_lines (σ := ScriptedSource)
    (η := StaticHost) countable
  refine ⟨countable, found, asked, ?_⟩
  exact (refused {} "cleaver" kitchen found nofun "Cleaver" 1 1).2
    ⟨⟨⟨none, rfl⟩, rfl⟩, rfl, rfl, rfl⟩

/-- A flag behind the damage lines is not left out: the quick roll asks for a line that its item
does not have, and nothing comes of the line that it has. -/
theorem missing_line_is_asked_for :
    (¬∀ (item : Item) (preset : Preset),
      (∀ line ∈ item.crit.extraDamage, line < item.damage.parts.length) →
        ∀ args, .damage args ∈ (item.quickRoll preset).2 →
          ∀ line ∈ Plan.selected item.damage.parts.length args.index,
            line < item.damage.parts.length) ∧
    perform (runPreset {} "cleaver" .primary) kitchen =
      (.error (.damageIndexOutOfRange "Cleaver" 1 1), kitchen) := by
  refine ⟨fun all => ?_, rfl⟩
  have beyond := all cleaver .primary nofun { index := .index 1 } (by decide) 1 (by decide)
  exact absurd beyond (by decide)

end Tabletop
