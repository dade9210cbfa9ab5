import Mathlib
import Tabletop.Proofs.Dice.Sources
/-!
# Dice that show their highest face

A dice term comes to no more than it does where every die shows its highest face. The highest dice
are all equal throughout the modifiers, and of them as many are active as of any other dice, since
no modifier counts dice by what they show.
-/

namespace Tabletop

/-! ## Dice that stay active -/

def activeCount (dice : List DieResult) : Nat := dice.countP (·.active)

theorem length_placedValues (dice : List DieResult) (place : Nat) :
    (placedValues place dice).length = activeCount dice := by
  induction dice generalizing place with
  | nil => rfl
  | cons die dice ih =>
    rw [placedValues, activeCount, List.countP_cons]
    by_cases active : die.active = true
    · rw [if_pos active, if_pos active, List.length_cons, ih]
      rfl
    · rw [if_neg active, if_neg active, ih]
      rfl

theorem le_of_mem_placedValues {dice : List DieResult} {place : Nat} {p : Nat × Nat}
    (h : p ∈ placedValues place dice) : place ≤ p.1 := by
  induction dice generalizing place with
  | nil => cases h
  | cons die dice ih =>
    rw [placedValues] at h
    split at h
    · rcases List.mem_cons.1 h with rfl | h
      · exact Nat.le_refl _
      · exact Nat.le_of_succ_le (ih h)
    · exact Nat.le_of_succ_le (ih h)

theorem nodup_placedValues (dice : List DieResult) (place : Nat) :
    ((placedValues place dice).map (·.1)).Nodup := by
  induction dice generalizing place with
  | nil => exact List.nodup_nil
  | cons die dice ih =>
    rw [placedValues]
    split
    · refine List.nodup_cons.2 ⟨fun mem => ?_, ih _⟩
      obtain ⟨p, mem, same⟩ := List.mem_map.1 mem
      have behind : place + 1 ≤ p.1 := le_of_mem_placedValues mem
      exact absurd same (Nat.ne_of_gt behind)
    · exact ih _

theorem placedValues_deactivate (places : List Nat) (dice : List DieResult) (place : Nat) :
    placedValues place (deactivate places place dice) =
      (placedValues place dice).filter fun p => !places.contains p.1 := by
  induction dice generalizing place with
  | nil => rfl
  | cons die dice ih =>
    rw [deactivate]
    by_cases active : die.active = true
    · by_cases dropped : places.contains place = true
      · rw [if_pos dropped, placedValues, if_neg (by simp), placedValues, if_pos active, ih,
          List.filter_cons, if_neg (by simpa using dropped)]
      · rw [if_neg dropped, placedValues, if_pos active, placedValues, if_pos active, ih,
          List.filter_cons, if_pos (by simpa using dropped)]
    · rw [placedValues, placedValues, if_neg active, if_neg, ih]
      split
      · exact Bool.false_ne_true
      · exact active

theorem mem_of_mem_deactivate {places : List Nat} {dice : List DieResult} {place : Nat}
    {die : DieResult} (h : die ∈ deactivate places place dice) (active : die.active = true) :
    die ∈ dice := by
  induction dice generalizing place with
  | nil => cases h
  | cons first dice ih =>
    rcases List.mem_cons.1 h with rfl | h
    · split at active
      · cases active
      · next kept =>
        rw [if_neg kept]
        exact List.mem_cons_self
    · exact List.mem_cons_of_mem _ (ih h)

/-- Of a list of things apart those that are not behind a place are the first ones. -/
theorem filter_notMem_drop {ranked : List (Nat × Nat)} (apart : (ranked.map (·.1)).Nodup)
    (count : Nat) :
    ranked.filter (fun p => !((ranked.drop count).map (·.1)).contains p.1) =
      ranked.take count := by
  have disjoint : ∀ p ∈ ranked.take count, p.1 ∉ (ranked.drop count).map (·.1) := by
    rw [← List.take_append_drop count ranked, List.map_append] at apart
    intro p mem
    exact (List.nodup_append'.1 apart).2.2 (List.mem_map_of_mem mem)
  conv_lhs => arg 2; rw [← List.take_append_drop count ranked]
  rw [List.filter_append, List.filter_eq_self.2, List.filter_eq_nil_iff.2, List.append_nil]
  · intro p mem
    rw [Bool.not_eq_true', Bool.not_eq_false]
    exact List.contains_iff_mem.2 (List.mem_map_of_mem mem)
  · intro p mem
    simpa using disjoint p mem

/-- Keeping the first dice of an order leaves as many as are to be kept, if there are so many. -/
theorem activeCount_keepFirst (before : Nat → Nat → Bool) (count : Nat) (dice : List DieResult) :
    activeCount (keepFirst before count dice) = min count (activeCount dice) := by
  unfold keepFirst
  dsimp only
  generalize sorted : (placedValues 0 dice).mergeSort _ = ranked
  have perm : ranked.Perm (placedValues 0 dice) := sorted ▸ List.mergeSort_perm _ _
  have apart : (ranked.map (·.1)).Nodup :=
    (perm.map _).nodup_iff.2 (nodup_placedValues dice 0)
  rw [← length_placedValues _ 0, placedValues_deactivate, ← (perm.filter _).length_eq,
    filter_notMem_drop apart, List.length_take, perm.length_eq, length_placedValues]

/-! ## What the active dice show -/

/-- What all active dice show. -/
def ActiveAll (P : Nat → Prop) (dice : List DieResult) : Prop :=
  ∀ die ∈ dice, die.active = true → P die.value

theorem ActiveAll.keepFirst {P : Nat → Prop} {dice : List DieResult} (h : ActiveAll P dice)
    (before : Nat → Nat → Bool) (count : Nat) : ActiveAll P (keepFirst before count dice) :=
  fun die mem active => h die (mem_of_mem_deactivate mem active) active

theorem ActiveAll.raiseTo {P Q : Nat → Prop} {dice : List DieResult} (h : ActiveAll P dice)
    {least : Nat} (raised : ∀ value, P value → Q (max least value)) :
    ActiveAll Q (raiseTo least dice) := by
  intro die mem active
  obtain ⟨low, was_there, rfl⟩ := List.mem_map.1 mem
  split at active
  · next was =>
    rw [if_pos was]
    exact raised _ (h low was_there was)
  · next was => exact absurd active was

theorem activeCount_raiseTo (least : Nat) (dice : List DieResult) :
    activeCount (raiseTo least dice) = activeCount dice := by
  rw [activeCount, raiseTo, List.countP_map]
  refine List.countP_congr fun die _ => ?_
  rw [Function.comp_apply]
  split
  · exact Iff.rfl
  · exact Iff.rfl

section

variable {σ : Type} [Roller σ] {P Q : Nat → Prop} {faces : Nat}

theorem activeAll_rollMany (rolled : ∀ s : σ, P (Roller.roll faces s).1) (number : Nat) (s : σ) :
    ActiveAll P (rollMany faces number s).1 := by
  induction number generalizing s with
  | zero => exact fun _ mem => nomatch mem
  | succ number ih => exact List.forall_mem_cons.2 ⟨fun _ => rolled s, ih _⟩

theorem activeCount_rollMany (number : Nat) (s : σ) :
    activeCount (rollMany faces number s).1 = number := by
  induction number generalizing s with
  | zero => rfl
  | succ number ih =>
    have rest := ih (Roller.roll faces s).2
    rw [activeCount] at rest
    rw [rollMany, activeCount]
    simp only [List.countP_cons, rest]
    rfl

/-- Dice stay that are not below the bound, and the others are rolled again. -/
theorem ActiveAll.rerollBelow {bound : Nat} {dice : List DieResult} (h : ActiveAll P dice)
    (kept : ∀ value, P value → bound ≤ value → Q value)
    (rolled : ∀ value, P value → value < bound → ∀ s : σ, Q (Roller.roll faces s).1) (s : σ) :
    ActiveAll Q (rerollBelow faces bound dice s).1 := by
  induction dice generalizing s with
  | nil => exact fun _ mem => nomatch mem
  | cons die dice ih =>
    obtain ⟨first, others⟩ := List.forall_mem_cons.1 h
    rw [Tabletop.rerollBelow]
    split
    · next low =>
      rw [Bool.and_eq_true, decide_eq_true_eq] at low
      refine List.forall_mem_cons.2 ⟨nofun, List.forall_mem_cons.2 ⟨fun _ => ?_, ih others _⟩⟩
      exact rolled die.value (first low.1) low.2 s
    · next high =>
      refine List.forall_mem_cons.2 ⟨fun active => kept die.value (first active) ?_, ih others _⟩
      simpa [active] using high

theorem activeCount_rerollBelow (faces bound : Nat) (dice : List DieResult) (s : σ) :
    activeCount (rerollBelow faces bound dice s).1 = activeCount dice := by
  induction dice generalizing s with
  | nil => rfl
  | cons die dice ih =>
    rw [rerollBelow]
    split
    · next low =>
      have active := (Bool.and_eq_true_iff.1 low).1
      have rest := ih (Roller.roll faces s).2
      rw [activeCount, activeCount] at rest ⊢
      simp only [List.countP_cons, rest, active]
      rfl
    · have rest := ih s
      rw [activeCount, activeCount] at rest ⊢
      simp only [List.countP_cons, rest]

end

/-! ## Dice beside the highest ones -/

/-- Dice beside as many that all show the same, which is not less than a die has faces. -/
structure Topped (faces highest : Nat) (dice top : List DieResult) : Prop where
  enough : faces ≤ highest
  below : ActiveAll (· ≤ highest) dice
  shown : ActiveAll (· = highest) top
  count : activeCount dice = activeCount top

section

variable {σ : Type} [Roller σ] [FairRoller σ] {faces highest : Nat} {dice top : List DieResult}

theorem topped_rollMany (sided : 1 ≤ faces) (number : Nat) (s : σ) (t : Maximizer) :
    Topped faces faces (rollMany faces number s).1 (rollMany faces number t).1 where
  enough := Nat.le_refl faces
  below := activeAll_rollMany (fun s => (FairRoller.within s sided).2) number s
  shown := activeAll_rollMany (fun _ => rfl) number t
  count := by rw [activeCount_rollMany, activeCount_rollMany]

omit [Roller σ] [FairRoller σ] in
theorem Topped.keepFirst (h : Topped faces highest dice top) (before : Nat → Nat → Bool)
    (count : Nat) : Topped faces highest (keepFirst before count dice)
      (keepFirst before count top) where
  enough := h.enough
  below := h.below.keepFirst before count
  shown := h.shown.keepFirst before count
  count := by rw [activeCount_keepFirst, activeCount_keepFirst, h.count]

/-- A modifier leaves the highest dice equal. A reroll of them brings them back to their faces, and
a reroll of others brings these no further. -/
theorem Topped.apply (h : Topped faces highest dice top) (sided : 1 ≤ faces) (m : DieModifier)
    (s : σ) (t : Maximizer) :
    ∃ highest', Topped faces highest' (m.apply faces dice s).1 (m.apply faces top t).1 := by
  have ⟨enough, below, shown, count⟩ := h
  have rolled (s : σ) : (Roller.roll faces s).1 ≤ faces := (FairRoller.within s sided).2
  cases m with
  | rerollBelow bound =>
    have counts : activeCount (rerollBelow faces bound dice s).1 =
        activeCount (rerollBelow faces bound top t).1 := by
      rw [activeCount_rerollBelow, activeCount_rerollBelow, count]
    by_cases low : highest < bound
    · refine ⟨faces, Nat.le_refl _, below.rerollBelow ?_ (fun _ _ _ s => rolled s) s,
        shown.rerollBelow ?_ (fun _ _ _ _ => rfl) t, counts⟩
      · exact fun value le high => absurd (Nat.lt_of_le_of_lt le low) (Nat.not_lt.2 high)
      · exact fun value eq high => absurd (eq ▸ low) (Nat.not_lt.2 high)
    · refine ⟨highest, enough, below.rerollBelow (fun _ le _ => le)
        (fun _ _ _ s => (rolled s).trans enough) s, shown.rerollBelow (fun _ eq _ => eq) ?_ t,
        counts⟩
      exact fun value eq lt => absurd (eq ▸ lt) low
  | keepHighest keep => exact ⟨highest, h.keepFirst (fun a b => a > b) keep⟩
  | keepLowest keep => exact ⟨highest, h.keepFirst (fun a b => a < b) keep⟩
  | minimum least =>
    refine ⟨max least highest, enough.trans (Nat.le_max_right _ _),
      below.raiseTo fun value le => ?_, shown.raiseTo fun value eq => ?_, ?_⟩
    · exact max_le_max (Nat.le_refl least) le
    · rw [eq]
    · rw [DieModifier.apply, DieModifier.apply, activeCount_raiseTo, activeCount_raiseTo, count]

theorem Topped.applyModifiers (h : Topped faces highest dice top) (sided : 1 ≤ faces)
    (ms : List DieModifier) (s : σ) (t : Maximizer) :
    ∃ highest', Topped faces highest' (applyModifiers faces ms dice s).1
      (applyModifiers faces ms top t).1 := by
  induction ms generalizing highest dice top s t with
  | nil => exact ⟨highest, h⟩
  | cons m ms ih =>
    obtain ⟨highest', applied⟩ := h.apply sided m s t
    exact ih applied (m.apply faces dice s).2 (m.apply faces top t).2

end

theorem sumOf_le {values : List Nat} {highest : Nat} (h : ∀ value ∈ values, value ≤ highest) :
    sumOf values ≤ values.length * highest := by
  induction values with
  | nil => exact Nat.zero_le _
  | cons value values ih =>
    obtain ⟨first, others⟩ := List.forall_mem_cons.1 h
    have rest := ih others
    rw [sumOf, List.length_cons, Nat.succ_mul]
    omega

theorem sumOf_eq {values : List Nat} {highest : Nat} (h : ∀ value ∈ values, value = highest) :
    sumOf values = values.length * highest := by
  induction values with
  | nil => exact (Nat.zero_mul _).symm
  | cons value values ih =>
    obtain ⟨rfl, others⟩ := List.forall_mem_cons.1 h
    rw [sumOf, List.length_cons, Nat.succ_mul, ih others, Nat.add_comm]

theorem DieOutcome.length_activeValues (o : DieOutcome) :
    o.activeValues.length = activeCount o.results := by
  rw [activeValues, List.length_map, activeCount, List.countP_eq_length_filter]

theorem DieOutcome.forall_activeValues {P : Nat → Prop} {o : DieOutcome}
    (h : ActiveAll P o.results) : ∀ value ∈ o.activeValues, P value := by
  intro value mem
  obtain ⟨die, shown, rfl⟩ := List.mem_map.1 mem
  obtain ⟨was_there, active⟩ := List.mem_filter.1 shown
  exact h die was_there active

/-- Dice that all show the same. -/
theorem DieOutcome.total_eq_mul {highest : Nat} {o : DieOutcome}
    (h : ActiveAll (· = highest) o.results) : o.total = activeCount o.results * highest := by
  rw [total, sumOf_eq (forall_activeValues h), length_activeValues]

theorem Topped.total_le {faces highest : Nat} {dice top : List DieResult}
    (h : Topped faces highest dice top) :
    (DieOutcome.mk faces dice).total ≤ (DieOutcome.mk faces top).total := by
  calc (DieOutcome.mk faces dice).total
      ≤ (DieOutcome.mk faces dice).activeValues.length * highest :=
        sumOf_le (DieOutcome.forall_activeValues h.below)
    _ = activeCount dice * highest := by rw [DieOutcome.length_activeValues]
    _ = activeCount top * highest := by rw [h.count]
    _ = (DieOutcome.mk faces top).total :=
        (DieOutcome.total_eq_mul (o := ⟨faces, top⟩) h.shown).symm

/-- A dice term comes to no more than its highest dice do. -/
theorem DiceTerm.total_le_highest {σ : Type} [Roller σ] [FairRoller σ] {d : DiceTerm}
    (sided : 1 ≤ d.faces) {s s' : σ} {o top : DieOutcome} {t t' : Maximizer}
    (rolled : perform d.roll s = (.ok o, s')) (highest : perform d.roll t = (.ok top, t')) :
    o.total ≤ top.total := by
  obtain ⟨-, dice, applied, rfl⟩ := perform_roll_ok_iff.1 rolled
  obtain ⟨-, best, applied', rfl⟩ := perform_roll_ok_iff.1 highest
  obtain ⟨_, topped⟩ := (topped_rollMany sided d.number s t).applyModifiers sided d.modifiers
    (rollMany d.faces d.number s).2 (rollMany d.faces d.number t).2
  rw [applied, applied'] at topped
  exact topped.total_le

end Tabletop
