import Mathlib
import Tabletop.Proofs.Dice.Draws
import Tabletop.Proofs.Dice.Merging
/-!
# Modifiers of dice

What each modifier does to the dice that it finds, whatever was done to them before: a reroll takes
dice out and draws one die behind each of them, keeping takes out the dice that come last in an
order, and a minimum raises dice. From these single steps follows what the dice of a term look like
in the end: a die that was taken out once stays as it was, and no die shows what neither a face nor
a minimum is.
-/

namespace Tabletop

/-! ## What single modifiers do -/

/-- Each active die below the bound is made inactive, and the next face that is drawn is put right
behind it. -/
inductive Rerolled (bound : Nat) : List DieResult → List Nat → List DieResult → Prop
  | nil : Rerolled bound [] [] []
  | stays {die : DieResult} {dice after : List DieResult} {drawn : List Nat}
      (kept : ¬(die.active = true ∧ die.value < bound)) (rest : Rerolled bound dice drawn after) :
      Rerolled bound (die :: dice) drawn (die :: after)
  | rerolled {value face : Nat} {dice after : List DieResult} {drawn : List Nat}
      (low : value < bound) (rest : Rerolled bound dice drawn after) :
      Rerolled bound (⟨value, true⟩ :: dice) (face :: drawn)
        (⟨value, false⟩ :: ⟨face, true⟩ :: after)

/-- Of the active dice some are made inactive, so that a given number is left. No die that is left
comes behind a die that is not, in an order of values in which the earlier of equal dice comes
first. -/
structure Kept (ahead : Nat → Nat → Prop) (count : Nat) (dice after : List DieResult) : Prop where
  same : List.Forall₂ (fun die left => left.value = die.value ∧
    (die.active = false → left.active = false)) dice after
  count : activeCount after = min count (activeCount dice)
  ordered : ∀ {i j dropped left : Nat}, dice[i]? = some ⟨dropped, true⟩ →
    after[i]? = some ⟨dropped, false⟩ → after[j]? = some ⟨left, true⟩ →
    ¬ahead dropped left ∧ (dropped = left → j < i)

/-- The active dice below the least value are raised to it. -/
def Raised (least : Nat) (dice after : List DieResult) : Prop :=
  List.Forall₂ (fun die up => up.active = die.active ∧
    up.value = if die.active = true ∧ die.value < least then least else die.value) dice after

/-- What a modifier does to dice, with the faces that are drawn for it. -/
inductive Modified : DieModifier → List DieResult → List Nat → List DieResult → Prop
  | rerollBelow {bound : Nat} {dice after : List DieResult} {drawn : List Nat}
      (h : Rerolled bound dice drawn after) : Modified (.rerollBelow bound) dice drawn after
  | keepHighest {count : Nat} {dice after : List DieResult} (h : Kept (· > ·) count dice after) :
      Modified (.keepHighest count) dice [] after
  | keepLowest {count : Nat} {dice after : List DieResult} (h : Kept (· < ·) count dice after) :
      Modified (.keepLowest count) dice [] after
  | minimum {least : Nat} {dice after : List DieResult} (h : Raised least dice after) :
      Modified (.minimum least) dice [] after

/-- Modifiers one after the other: the dice before each of them and after the last one, and the
faces that are drawn for all of them. -/
inductive Stages : List DieModifier → List DieResult → List (List DieResult) → List Nat →
    List DieResult → Prop
  | nil (dice : List DieResult) : Stages [] dice [dice] [] dice
  | cons {m : DieModifier} {ms : List DieModifier} {dice between after : List DieResult}
      {drawn more : List Nat} {stages : List (List DieResult)}
      (first : Modified m dice drawn between) (rest : Stages ms between stages more after) :
      Stages (m :: ms) dice (dice :: stages) (drawn ++ more) after

/-! ## The steps of the roll -/

theorem getElem?_deactivate (places : List Nat) (dice : List DieResult) (place i : Nat) :
    (deactivate places place dice)[i]? = dice[i]?.map fun die =>
      if places.contains (place + i) then { die with active := false } else die := by
  induction dice generalizing place i with
  | nil => rfl
  | cons die dice ih =>
    cases i with
    | zero => rfl
    | succ i =>
      rw [deactivate, List.getElem?_cons_succ, List.getElem?_cons_succ, ih,
        Nat.succ_add_eq_add_succ]

theorem deactivate_same (places : List Nat) (dice : List DieResult) (place : Nat) :
    List.Forall₂ (fun die left => left.value = die.value ∧
      (die.active = false → left.active = false)) dice (deactivate places place dice) := by
  induction dice generalizing place with
  | nil => exact .nil
  | cons die dice ih =>
    refine .cons ?_ (ih (place + 1))
    split
    · exact ⟨rfl, fun _ => rfl⟩
    · exact ⟨rfl, id⟩

theorem mem_placedValues_iff (place : Nat) {dice : List DieResult} {i value : Nat} :
    (place + i, value) ∈ placedValues place dice ↔ dice[i]? = some ⟨value, true⟩ := by
  induction dice generalizing place i with
  | nil => simp [placedValues]
  | cons die dice ih =>
    have before : (place, value) ∉ placedValues (place + 1) dice := fun mem =>
      absurd (le_of_mem_placedValues mem) (Nat.not_succ_le_self place)
    obtain ⟨shown, active⟩ := die
    rw [placedValues]
    cases i with
    | zero =>
      cases active with
      | true => simp [before, eq_comm]
      | false => simp [before]
    | succ i =>
      have behind := @ih (place + 1) i
      rw [Nat.succ_add_eq_add_succ] at behind
      cases active with
      | true => simp [← behind]
      | false => simpa using behind

section

variable (ahead : Nat → Nat → Prop) [DecidableRel ahead] [IsStrictTotalOrder Nat ahead]

/-- Ranked dice come in the order of their values, and equal ones in the order of their places. -/
theorem pairwise_ranked (placed : List (Nat × Nat)) :
    (placed.mergeSort fun a b =>
      decide (ahead a.2 b.2) || (a.2 == b.2 && decide (a.1 ≤ b.1))).Pairwise fun a b =>
        ahead a.2 b.2 ∨ a.2 = b.2 ∧ a.1 ≤ b.1 := by
  refine (List.pairwise_mergeSort ?_ ?_ placed).imp ?_
  · intro a b c first second
    simp only [Bool.or_eq_true, Bool.and_eq_true, decide_eq_true_eq, beq_iff_eq] at first second ⊢
    rcases first with first | ⟨same, le⟩
    · rcases second with second | ⟨same', -⟩
      · exact Or.inl (trans_of ahead first second)
      · exact Or.inl (same' ▸ first)
    · rcases second with second | ⟨same', le'⟩
      · exact Or.inl (same ▸ second)
      · exact Or.inr ⟨same.trans same', le.trans le'⟩
  · intro a b
    simp only [Bool.or_eq_true, Bool.and_eq_true, decide_eq_true_eq, beq_iff_eq]
    rcases trichotomous_of ahead a.2 b.2 with first | same | second
    · exact Or.inl (Or.inl first)
    · rcases Nat.le_total a.1 b.1 with le | le
      · exact Or.inl (Or.inr ⟨same, le⟩)
      · exact Or.inr (Or.inr ⟨same.symm, le⟩)
    · exact Or.inr (Or.inl second)
  · intro a b le
    simpa using le

theorem keepFirst_kept (count : Nat) (dice : List DieResult) :
    Kept ahead count dice (keepFirst (fun a b => decide (ahead a b)) count dice) where
  same := deactivate_same _ _ _
  count := activeCount_keepFirst _ count dice
  ordered := by
    intro i j dropped left found gone stays
    have sorted := pairwise_ranked ahead (placedValues 0 dice)
    have perm := List.mergeSort_perm (placedValues 0 dice) fun a b =>
      decide (ahead a.2 b.2) || (a.2 == b.2 && decide (a.1 ≤ b.1))
    unfold keepFirst at gone stays
    dsimp only at gone stays
    generalize List.mergeSort _ _ = ranked at gone stays sorted perm
    have placed {i value : Nat} : (i, value) ∈ ranked ↔ dice[i]? = some ⟨value, true⟩ := by
      rw [perm.mem_iff, ← mem_placedValues_iff 0, Nat.zero_add]
    -- the die that is dropped is ranked behind the first ones, the other one is not
    have behind : (i, dropped) ∈ ranked.drop count := by
      rw [getElem?_deactivate, found, Option.map_some, Nat.zero_add] at gone
      split at gone
      · next out =>
        obtain ⟨⟨k, value⟩, mem, rfl⟩ := List.mem_map.1 (List.contains_iff_mem.1 out)
        cases found.symm.trans (placed.1 (List.mem_of_mem_drop mem))
        exact mem
      · cases gone
    have before : (j, left) ∈ ranked.take count ∧ j ≠ i := by
      rw [getElem?_deactivate, Option.map_eq_some_iff, Nat.zero_add] at stays
      obtain ⟨die, there, made⟩ := stays
      split at made
      · cases made
      · next inside =>
        subst made
        have mem := placed.2 there
        rw [← List.take_append_drop count ranked] at mem
        rcases List.mem_append.1 mem with mem | mem
        · refine ⟨mem, ?_⟩
          rintro rfl
          exact inside (List.contains_iff_mem.2 (List.mem_map_of_mem behind))
        · exact absurd (List.contains_iff_mem.2 (List.mem_map_of_mem mem)) inside
    rw [← List.take_append_drop count ranked] at sorted
    rcases (List.pairwise_append.1 sorted).2.2 _ before.1 _ behind with first | ⟨rfl, le⟩
    · refine ⟨asymm_of ahead first, ?_⟩
      rintro rfl
      exact absurd first (irrefl_of ahead dropped)
    · exact ⟨irrefl_of ahead left, fun _ => Nat.lt_of_le_of_ne le before.2⟩

end

section

variable {σ : Type} [Roller σ]

theorem rerollBelow_rerolled (faces bound : Nat) (dice : List DieResult) (s : σ) :
    ∃ drawn, Rerolled bound dice drawn (rerollBelow faces bound dice s).1 ∧
      Draws s (drawn.map (faces, ·)) (rerollBelow faces bound dice s).2 := by
  induction dice generalizing s with
  | nil => exact ⟨[], .nil, .nil s⟩
  | cons die dice ih =>
    rw [rerollBelow]
    split
    · next low =>
      obtain ⟨value, active⟩ := die
      obtain ⟨rfl, below⟩ : active = true ∧ value < bound := by simpa using low
      obtain ⟨drawn, rest, draws⟩ := ih (Roller.roll faces s).2
      exact ⟨_ :: drawn, .rerolled below rest, .cons draws⟩
    · next kept =>
      obtain ⟨drawn, rest, draws⟩ := ih s
      exact ⟨drawn, .stays (by simpa using kept) rest, draws⟩

omit [Roller σ] in
theorem raiseTo_raised (least : Nat) (dice : List DieResult) :
    Raised least dice (raiseTo least dice) := by
  refine List.forall₂_map_right_iff.2 (List.forall₂_same.2 fun die _ => ?_)
  obtain ⟨value, active⟩ := die
  cases active with
  | false => exact ⟨rfl, rfl⟩
  | true =>
    refine ⟨rfl, ?_⟩
    change max least value = if true = true ∧ value < least then least else value
    split
    · next low => exact Nat.max_eq_left (Nat.le_of_lt low.2)
    · next high => exact Nat.max_eq_right (Nat.not_lt.1 fun low => high ⟨rfl, low⟩)

theorem DieModifier.apply_modified (faces : Nat) (m : DieModifier) (dice : List DieResult) (s : σ) :
    ∃ drawn, Modified m dice drawn (m.apply faces dice s).1 ∧
      Draws s (drawn.map (faces, ·)) (m.apply faces dice s).2 := by
  cases m with
  | rerollBelow bound =>
    obtain ⟨drawn, rerolled, draws⟩ := rerollBelow_rerolled faces bound dice s
    exact ⟨drawn, .rerollBelow rerolled, draws⟩
  | keepHighest count => exact ⟨[], .keepHighest (keepFirst_kept _ count dice), .nil s⟩
  | keepLowest count => exact ⟨[], .keepLowest (keepFirst_kept _ count dice), .nil s⟩
  | minimum least => exact ⟨[], .minimum (raiseTo_raised least dice), .nil s⟩

theorem applyModifiers_stages (faces : Nat) (ms : List DieModifier) (dice : List DieResult)
    (s : σ) : ∃ stages drawn, Stages ms dice stages drawn (applyModifiers faces ms dice s).1 ∧
      Draws s (drawn.map (faces, ·)) (applyModifiers faces ms dice s).2 := by
  induction ms generalizing dice s with
  | nil => exact ⟨[dice], [], .nil dice, .nil s⟩
  | cons m ms ih =>
    obtain ⟨drawn, first, draws⟩ := m.apply_modified faces dice s
    obtain ⟨stages, more, rest, draws'⟩ := ih (m.apply faces dice s).1 (m.apply faces dice s).2
    refine ⟨dice :: stages, drawn ++ more, .cons first rest, ?_⟩
    rw [List.map_append]
    exact draws.append draws'

theorem rollMany_shown (faces number : Nat) (s : σ) :
    ∃ shown : List Nat, (rollMany faces number s).1 = shown.map (⟨·, true⟩) ∧
      shown.length = number ∧ Draws s (shown.map (faces, ·)) (rollMany faces number s).2 := by
  induction number generalizing s with
  | zero => exact ⟨[], rfl, rfl, .nil s⟩
  | succ number ih =>
    obtain ⟨shown, made, length, draws⟩ := ih (Roller.roll faces s).2
    exact ⟨_ :: shown, congrArg (_ :: ·) made, congrArg (· + 1) length, .cons draws⟩

theorem Draws.forall_face {P : Nat → Prop} {faces : Nat}
    (rolled : ∀ s : σ, P (Roller.roll faces s).1) {drawn : List Nat} {s s' : σ}
    (h : Draws s (drawn.map (faces, ·)) s') : ∀ face ∈ drawn, P face := by
  induction drawn generalizing s with
  | nil => exact List.forall_mem_nil _
  | cons face drawn ih =>
    cases h with
    | cons rest => exact List.forall_mem_cons.2 ⟨rolled s, ih rest⟩

end

/-! ## What becomes of a die -/

/-- Dice and what became of them later. An inactive die is still there as it was. In the place of an
active one there are dice that were taken out, and one die behind them. -/
inductive Descends : List DieResult → List DieResult → Prop
  | nil : Descends [] []
  | inactive {die : DieResult} {dice after : List DieResult} (out : die.active = false)
      (rest : Descends dice after) : Descends (die :: dice) (die :: after)
  | active {die last : DieResult} {dice gone after : List DieResult} (counts : die.active = true)
      (out : ∀ d ∈ gone, d.active = false) (rest : Descends dice after) :
      Descends (die :: dice) (gone ++ last :: after)

namespace Descends

theorem active_cons {die later : DieResult} {dice after : List DieResult}
    (counts : die.active = true) (rest : Descends dice after) :
    Descends (die :: dice) (later :: after) :=
  @active die later dice [] after counts (List.forall_mem_nil _) rest

theorem of_forall₂ {dice after : List DieResult}
    (h : List.Forall₂ (fun die later => die.active = false → later = die) dice after) :
    Descends dice after := by
  induction h with
  | nil => exact .nil
  | @cons die later dice after same _ ih =>
    cases active : die.active with
    | true => exact .active_cons active ih
    | false =>
      rw [same active]
      exact .inactive active ih

protected theorem refl (dice : List DieResult) : Descends dice dice :=
  .of_forall₂ (List.forall₂_same.2 fun _ _ _ => rfl)

theorem of_gone_append {gone dice after : List DieResult} (out : ∀ d ∈ gone, d.active = false)
    (h : Descends (gone ++ dice) after) : ∃ later, after = gone ++ later ∧ Descends dice later := by
  induction gone generalizing after with
  | nil => exact ⟨after, rfl, h⟩
  | cons die gone ih =>
    obtain ⟨first, others⟩ := List.forall_mem_cons.1 out
    cases h with
    | inactive _ rest =>
      obtain ⟨later, rfl, descends⟩ := ih others rest
      exact ⟨later, rfl, descends⟩
    | active counts _ _ => cases first.symm.trans counts

protected theorem trans {first second third : List DieResult} (h : Descends first second)
    (h' : Descends second third) : Descends first third := by
  induction h generalizing third with
  | nil => exact h'
  | inactive out rest ih =>
    cases h' with
    | inactive _ rest' => exact .inactive out (ih rest')
    | active counts _ _ => cases out.symm.trans counts
  | active counts out rest ih =>
    obtain ⟨later, rfl, descends⟩ := of_gone_append out h'
    cases descends with
    | inactive _ rest' => exact .active counts out (ih rest')
    | @active _ last _ gone after _ out' rest' =>
      rw [← List.append_assoc]
      exact .active counts (List.forall_mem_append.2 ⟨out, out'⟩) (ih rest')

end Descends

/-! ## What one modifier keeps up -/

theorem Rerolled.length_eq {bound : Nat} {dice after : List DieResult} {drawn : List Nat}
    (h : Rerolled bound dice drawn after) : after.length = dice.length + drawn.length := by
  induction h with
  | nil => rfl
  | stays kept rest ih =>
    rw [List.length_cons, List.length_cons, ih]
    omega
  | rerolled low rest ih =>
    rw [List.length_cons, List.length_cons, List.length_cons, List.length_cons, ih]
    omega

theorem Rerolled.activeCount_eq {bound : Nat} {dice after : List DieResult} {drawn : List Nat}
    (h : Rerolled bound dice drawn after) : activeCount after = activeCount dice := by
  unfold activeCount
  induction h with
  | nil => rfl
  | stays kept rest ih => rw [List.countP_cons, List.countP_cons, ih]
  | rerolled low rest ih =>
    rw [List.countP_cons, List.countP_cons, List.countP_cons, ih]
    rfl

theorem Rerolled.descends {bound : Nat} {dice after : List DieResult} {drawn : List Nat}
    (h : Rerolled bound dice drawn after) : Descends dice after := by
  induction h with
  | nil => exact .nil
  | @stays die _ _ _ kept rest ih =>
    cases active : die.active with
    | true => exact .active_cons active ih
    | false => exact .inactive active ih
  | @rerolled value face _ _ _ low rest ih =>
    exact @Descends.active _ ⟨face, true⟩ _ [⟨value, false⟩] _ rfl
      (List.forall_mem_singleton.2 rfl) ih

theorem Rerolled.forall_value {P : Nat → Prop} {bound : Nat} {dice after : List DieResult}
    {drawn : List Nat} (h : Rerolled bound dice drawn after) (shown : ∀ die ∈ dice, P die.value)
    (faces : ∀ face ∈ drawn, P face) : ∀ die ∈ after, P die.value := by
  induction h with
  | nil => exact List.forall_mem_nil _
  | stays kept rest ih =>
    obtain ⟨here, others⟩ := List.forall_mem_cons.1 shown
    exact List.forall_mem_cons.2 ⟨here, ih others faces⟩
  | rerolled low rest ih =>
    obtain ⟨here, others⟩ := List.forall_mem_cons.1 shown
    obtain ⟨next, more⟩ := List.forall_mem_cons.1 faces
    exact List.forall_mem_cons.2 ⟨here, List.forall_mem_cons.2 ⟨next, ih others more⟩⟩

theorem forall_of_forall₂ {α : Type} {R : α → α → Prop} {P Q : α → Prop} {xs ys : List α}
    (h : List.Forall₂ R xs ys) (before : ∀ x ∈ xs, P x)
    (step : ∀ {x y : α}, R x y → P x → Q y) : ∀ y ∈ ys, Q y := by
  induction h with
  | nil => exact List.forall_mem_nil _
  | cons first _ ih =>
    obtain ⟨here, others⟩ := List.forall_mem_cons.1 before
    exact List.forall_mem_cons.2 ⟨step first here, ih others⟩

theorem Kept.descends {ahead : Nat → Nat → Prop} {count : Nat} {dice after : List DieResult}
    (h : Kept ahead count dice after) : Descends dice after := by
  refine .of_forall₂ (h.same.imp ?_)
  rintro ⟨value, active⟩ ⟨value', active'⟩ ⟨rfl, out⟩ rfl
  rw [DieResult.mk.injEq]
  exact ⟨rfl, out rfl⟩

theorem Raised.descends {least : Nat} {dice after : List DieResult} (h : Raised least dice after) :
    Descends dice after := by
  refine .of_forall₂ (h.imp ?_)
  rintro ⟨value, active⟩ ⟨up, active'⟩ ⟨same, raised⟩ rfl
  rw [DieResult.mk.injEq]
  exact ⟨raised, same⟩

theorem Raised.activeCount_eq {least : Nat} {dice after : List DieResult}
    (h : Raised least dice after) : activeCount after = activeCount dice := by
  unfold activeCount
  induction h with
  | nil => rfl
  | cons first _ ih => rw [List.countP_cons, List.countP_cons, ih, first.1]

namespace Modified

variable {m : DieModifier} {dice after : List DieResult} {drawn : List Nat}

theorem descends (h : Modified m dice drawn after) : Descends dice after := by
  cases h with
  | rerollBelow h => exact h.descends
  | keepHighest h => exact h.descends
  | keepLowest h => exact h.descends
  | minimum h => exact h.descends

theorem length_eq (h : Modified m dice drawn after) :
    after.length = dice.length + drawn.length := by
  cases h with
  | rerollBelow h => exact h.length_eq
  | keepHighest h => exact h.same.length_eq.symm
  | keepLowest h => exact h.same.length_eq.symm
  | minimum h => exact (List.Forall₂.length_eq h).symm

theorem activeCount_eq (h : Modified m dice drawn after) :
    activeCount after = m.kept (activeCount dice) := by
  cases h with
  | rerollBelow h => exact h.activeCount_eq
  | keepHighest h => exact h.count
  | keepLowest h => exact h.count
  | minimum h => exact h.activeCount_eq

/-- Dice show what they showed before, or what is drawn, or the minimum that they are raised to. -/
theorem forall_value {P : Nat → Prop} (h : Modified m dice drawn after)
    (shown : ∀ die ∈ dice, P die.value) (faces : ∀ face ∈ drawn, P face) :
    ∀ die ∈ after, P die.value ∨ m = .minimum die.value := by
  cases h with
  | rerollBelow h => exact fun die mem => Or.inl (h.forall_value shown faces die mem)
  | keepHighest h => exact forall_of_forall₂ h.same shown fun same here => Or.inl (same.1 ▸ here)
  | keepLowest h => exact forall_of_forall₂ h.same shown fun same here => Or.inl (same.1 ▸ here)
  | minimum h =>
    refine forall_of_forall₂ h shown fun {die up} raised here => ?_
    rw [raised.2]
    split
    · exact Or.inr rfl
    · exact Or.inl here

end Modified

/-! ## What all modifiers keep up -/

/-- How many dice are kept at most, for each modifier that keeps dice. -/
def keptCounts : List DieModifier → List Nat
  | [] => []
  | .keepHighest count :: ms => count :: keptCounts ms
  | .keepLowest count :: ms => count :: keptCounts ms
  | .rerollBelow _ :: ms => keptCounts ms
  | .minimum _ :: ms => keptCounts ms

/-- The least of all counts is what the modifiers let count. -/
theorem keptBy_eq_foldl (count : Nat) (ms : List DieModifier) :
    keptBy count ms = (keptCounts ms).foldl min count := by
  induction ms generalizing count with
  | nil => rfl
  | cons m ms ih =>
    rw [keptBy, ih]
    cases m with
    | rerollBelow _ => rfl
    | minimum _ => rfl
    | keepHighest most => exact congrArg (List.foldl min · (keptCounts ms)) (Nat.min_comm _ _)
    | keepLowest most => exact congrArg (List.foldl min · (keptCounts ms)) (Nat.min_comm _ _)

namespace Stages

variable {ms : List DieModifier} {dice after : List DieResult} {stages : List (List DieResult)}
  {drawn : List Nat}

theorem length_eq (h : Stages ms dice stages drawn after) :
    after.length = dice.length + drawn.length := by
  induction h with
  | nil dice => rfl
  | cons first rest ih =>
    rw [ih, first.length_eq, List.length_append, Nat.add_assoc]

theorem activeCount_eq (h : Stages ms dice stages drawn after) :
    activeCount after = keptBy (activeCount dice) ms := by
  induction h with
  | nil dice => rfl
  | cons first rest ih => rw [ih, first.activeCount_eq, keptBy]

theorem descends (h : Stages ms dice stages drawn after) :
    ∀ later ∈ stages, Descends dice later := by
  induction h with
  | nil dice => exact List.forall_mem_singleton.2 (.refl dice)
  | cons first rest ih =>
    exact List.forall_mem_cons.2 ⟨.refl _, fun later mem => first.descends.trans (ih later mem)⟩

/-- From any stage to a later one, a die that is inactive stays as it is. -/
theorem pairwise (h : Stages ms dice stages drawn after) : stages.Pairwise Descends := by
  induction h with
  | nil dice => exact List.pairwise_singleton _ _
  | cons first rest ih =>
    exact .cons (fun later mem => first.descends.trans (rest.descends later mem)) ih

theorem forall_value {P : Nat → Prop} (h : Stages ms dice stages drawn after)
    (shown : ∀ die ∈ dice, P die.value) (faces : ∀ face ∈ drawn, P face) :
    ∀ die ∈ after, P die.value ∨ .minimum die.value ∈ ms := by
  induction h generalizing P with
  | nil dice => exact fun die mem => Or.inl (shown die mem)
  | @cons m ms _ _ _ _ _ _ first rest ih =>
    obtain ⟨here, later⟩ := List.forall_mem_append.1 faces
    intro die mem
    have values := ih (P := fun value => P value ∨ m = .minimum value)
      (first.forall_value shown here) (fun face drawn => Or.inl (later face drawn)) die mem
    rcases values with (old | rfl) | raised
    · exact Or.inl old
    · exact Or.inr List.mem_cons_self
    · exact Or.inr (List.mem_cons_of_mem m raised)

end Stages

/-! ## The dice of a term -/

section

variable {σ : Type} [Roller σ] {d : DiceTerm}

/-- The dice of a term are drawn one after the other, and its modifiers are applied in written
order. As many dice are active in the end as the least count leaves, no die becomes active again,
and every die that is drawn is recorded. -/
theorem DiceTerm.roll_stages (few : d.number ≤ maxDice)
    (fair : ∀ s : σ, 1 ≤ (Roller.roll d.faces s).1 ∧ (Roller.roll d.faces s).1 ≤ d.faces) (s : σ) :
    ∃ (shown drawn : List Nat) (stages : List (List DieResult)) (dice : List DieResult) (s' : σ),
      perform d.roll s = (.ok ⟨d.faces, dice⟩, s') ∧ shown.length = d.number ∧
      Draws s ((shown ++ drawn).map (d.faces, ·)) s' ∧
      Stages d.modifiers (shown.map (⟨·, true⟩)) stages drawn dice ∧
      activeCount dice = (keptCounts d.modifiers).foldl min d.number ∧
      stages.Pairwise Descends ∧
      (∀ die ∈ dice, (1 ≤ die.value ∧ die.value ≤ d.faces) ∨ .minimum die.value ∈ d.modifiers) ∧
      dice.length = (shown ++ drawn).length := by
  obtain ⟨shown, made, length, draws⟩ := rollMany_shown d.faces d.number s
  have active : activeCount (rollMany d.faces d.number s).1 = d.number :=
    activeCount_rollMany d.number s
  rw [made] at active
  obtain ⟨stages, drawn, applied, draws'⟩ := applyModifiers_stages d.faces d.modifiers
    (shown.map (⟨·, true⟩)) (rollMany d.faces d.number s).2
  have inside : ∀ die ∈ shown.map (DieResult.mk · true), 1 ≤ die.value ∧ die.value ≤ d.faces :=
    List.forall_mem_map.2 (draws.forall_face fair)
  have values := applied.forall_value (P := fun value => 1 ≤ value ∧ value ≤ d.faces) inside
    (draws'.forall_face fair)
  refine ⟨shown, drawn, stages, _, _, perform_roll_ok_iff.2 ⟨few, _, by rw [made], rfl⟩, length,
    ?_, applied, ?_, applied.pairwise, values, ?_⟩
  · rw [List.map_append]
    exact draws.append draws'
  · rw [applied.activeCount_eq, active, keptBy_eq_foldl]
  · rw [applied.length_eq, List.length_map, List.length_append]

end

/-- Dice that are rerolled and dropped by turns. -/
def mixedDice : DiceTerm :=
  ⟨4, 6, [.rerollBelow 3, .keepLowest 3, .rerollBelow 4, .minimum 5, .keepHighest 2]⟩

/-- A six is dropped for good, a two and a three are rolled again, and of three dice that were
raised or rolled to the same value the first two are kept. -/
theorem mixedDice_rolled :
    mixedDice.number ≤ maxDice ∧
      ∃ (stages : List (List DieResult)) (dice : List DieResult) (s' : Script),
        perform mixedDice.roll (Script.mk [6, 2, 5, 4, 3, 1]) = (.ok ⟨6, dice⟩, s') ∧
        dice = [⟨6, false⟩, ⟨2, false⟩, ⟨3, false⟩, ⟨5, true⟩, ⟨5, true⟩, ⟨5, false⟩] ∧
        stages.Pairwise Descends ∧ activeCount dice = 2 := by
  have few : mixedDice.number ≤ maxDice := by decide
  have fair (s : Script) : 1 ≤ (Roller.roll mixedDice.faces s).1 ∧
      (Roller.roll mixedDice.faces s).1 ≤ mixedDice.faces := FairRoller.within s (by decide)
  obtain ⟨shown, drawn, stages, dice, s', rolled, -, -, -, active, pairwise, -, -⟩ :=
    DiceTerm.roll_stages few fair (Script.mk [6, 2, 5, 4, 3, 1])
  have shows : (perform mixedDice.roll (Script.mk [6, 2, 5, 4, 3, 1])).1 = .ok ⟨6,
      [⟨6, false⟩, ⟨2, false⟩, ⟨3, false⟩, ⟨5, true⟩, ⟨5, true⟩, ⟨5, false⟩]⟩ := by cbv
  rw [rolled] at shows
  exact ⟨few, stages, dice, s', rolled, (DieOutcome.mk.inj (Except.ok.inj shows)).2, pairwise,
    active⟩

end Tabletop
