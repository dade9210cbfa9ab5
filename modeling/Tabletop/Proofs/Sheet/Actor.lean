import Tabletop.Sheet.Actor
/-!
# Writes to an actor

A spell slot that is used and an item that is changed or removed are the only writes to an actor.
Each of them is described here by what it changes and by what it leaves alone.
-/

namespace Tabletop

/-! ## Spell slots -/

namespace SpellSlots

/-- One slot of a kind is used: its pool drops by one, and all else stays. -/
structure Spends (s s' : SpellSlots) (slot : SlotLevel) : Prop where
  dropped : ∃ left, s.remaining? slot = some (left + 1) ∧ s'.remaining? slot = some left
  others : ∀ other, other ≠ slot → s'.remaining? other = s.remaining? other
  maxima : ∀ n, (s'.pool? n).map (·.max) = (s.pool? n).map (·.max)
  pactMax : s'.pact.max = s.pact.max
  pactLevel : s'.pact.level = s.pact.level

theorem place?_injective {m n : Nat} {i : Fin 9} (hm : place? m = some i) (hn : place? n = some i) :
    m = n := by
  unfold place? at hm hn
  split at hm
  · split at hn
    · rw [← hm] at hn
      have h := congrArg Fin.val (Option.some.inj hn)
      simp only at h
      omega
    · cases hn
  · cases hm

theorem remaining?_level (s : SpellSlots) (n : Nat) :
    s.remaining? (.level n) = (s.pool? n).map (·.value) := rfl

theorem setRemaining_level (s : SpellSlots) {m : Nat} {i : Fin 9} (hm : place? m = some i)
    (value : Nat) :
    s.setRemaining (.level m) value =
      { s with levels := s.levels.set i { s.levels.get i with value } i.isLt } := by
  simp only [setRemaining, hm]

theorem pool?_setRemaining_level (s : SpellSlots) {m : Nat} {i : Fin 9} (hm : place? m = some i)
    (value n : Nat) :
    (s.setRemaining (.level m) value).pool? n =
      if n = m then some { s.levels.get i with value } else s.pool? n := by
  rw [setRemaining_level s hm]
  unfold pool?
  by_cases same : n = m
  · subst same
    rw [if_pos rfl, hm]
    exact congrArg some (Vector.getElem_set_self i.isLt)
  · rw [if_neg same]
    cases hn : place? n with
    | none => rfl
    | some j =>
      have apart : i.val ≠ j.val := by
        intro h
        exact same (place?_injective hn (by rw [hm, Fin.ext h]))
      exact congrArg some (Vector.getElem_set_ne i.isLt j.isLt apart)

/-- The number that is left of a kind, where it is one more than the new number. -/
theorem spends_setRemaining {s : SpellSlots} {slot : SlotLevel} {left : Nat}
    (h : s.remaining? slot = some (left + 1)) : s.Spends (s.setRemaining slot left) slot := by
  cases slot with
  | pact =>
    refine ⟨⟨left, h, rfl⟩, ?_, fun n => rfl, rfl, rfl⟩
    intro other apart
    cases other with
    | pact => exact absurd rfl apart
    | level n => rfl
  | level m =>
    cases hm : place? m with
    | none =>
      rw [remaining?_level, pool?, hm] at h
      cases h
    | some i =>
      have pools := s.pool?_setRemaining_level hm left
      refine ⟨⟨left, h, ?_⟩, ?_, ?_, ?_, ?_⟩
      · simp [remaining?, pools]
      · intro other apart
        cases other with
        | pact => simp [remaining?, setRemaining, hm]
        | level n =>
          have apart : n ≠ m := fun same => apart (same ▸ rfl)
          simp only [remaining?, pools, if_neg apart]
      · intro n
        rw [pools]
        split
        · rename_i same
          subst same
          simp [pool?, hm]
        · rfl
      · simp [setRemaining, hm]
      · simp [setRemaining, hm]

/-- A kind of which some slot is left can be used. -/
theorem spends_of_positive {s : SpellSlots} {slot : SlotLevel}
    (h : (s.remaining? slot).getD 0 ≠ 0) :
    ∃ left s', s.spend? slot = some (left, s') ∧ s.Spends s' slot := by
  unfold spend?
  cases found : s.remaining? slot with
  | none =>
    rw [found] at h
    exact absurd rfl h
  | some value =>
    rw [found] at h
    cases value with
    | zero => exact absurd rfl h
    | succ left => exact ⟨left, _, rfl, spends_setRemaining found⟩

end SpellSlots

/-! ## The inventory -/

theorem modifyFirst_append {α : Type} {p : α → Bool} (f : α → α) {before : List α} {a : α}
    (after : List α) (first : ∀ b ∈ before, ¬p b = true) (found : p a = true) :
    modifyFirst p f (before ++ a :: after) = before ++ f a :: after := by
  induction before with
  | nil => exact if_pos found
  | cons b before ih =>
    have skipped : ¬p b = true := first b List.mem_cons_self
    have rest := ih fun b mem => first b (List.mem_cons_of_mem _ mem)
    exact (if_neg skipped).trans (congrArg (b :: ·) rest)

theorem eraseP_append_cons {α : Type} {p : α → Bool} {before : List α} {a : α} (after : List α)
    (first : ∀ b ∈ before, ¬p b = true) (found : p a = true) :
    (before ++ a :: after).eraseP p = before ++ after := by
  rw [List.eraseP_append_right _ first, List.eraseP_cons_of_pos found]

namespace Actor

/-- An inventory around the first item with an id. -/
structure Holds (actor : Actor) (id : String) (before : List Item) (item : Item)
    (after : List Item) : Prop where
  items : actor.items = before ++ item :: after
  found : item.id = id
  first : ∀ other ∈ before, other.id ≠ id

variable {actor : Actor} {id : String} {before after : List Item} {item : Item}

theorem holds_of_item? (h : actor.item? id = some item) :
    ∃ before after, actor.Holds id before item after := by
  obtain ⟨found, before, after, items, first⟩ := List.find?_eq_some_iff_append.1 h
  refine ⟨before, after, items, eq_of_beq found, fun other mem same => ?_⟩
  have skipped := first other mem
  rw [same] at skipped
  simp at skipped

theorem Holds.skips (h : actor.Holds id before item after) :
    ∀ other ∈ before, ¬(other.id == id) = true := by
  intro other mem same
  exact h.first other mem (eq_of_beq same)

theorem Holds.modifyItem (h : actor.Holds id before item after) (f : Item → Item) :
    actor.modifyItem id f = { actor with items := before ++ f item :: after } := by
  unfold Actor.modifyItem
  rw [h.items, modifyFirst_append f after h.skips (beq_iff_eq.2 h.found)]

/-- Writing an item back changes nothing. -/
theorem modifyItem_self (found : actor.item? id = some item) :
    actor.modifyItem id (fun _ => item) = actor := by
  obtain ⟨before, after, holds⟩ := holds_of_item? found
  rw [holds.modifyItem, ← holds.items]

theorem Holds.removeItem (h : actor.Holds id before item after) :
    actor.removeItem id = { actor with items := before ++ after } := by
  unfold Actor.removeItem
  rw [h.items, eraseP_append_cons after h.skips (beq_iff_eq.2 h.found)]

end Actor

end Tabletop
