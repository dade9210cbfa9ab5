/-!
# Spell slots

Slots of the spell levels one to nine, and pact slots, which are all cast at one level.
-/

namespace Tabletop

/-- The kind of slot that a spell is cast with. -/
inductive SlotLevel where
  | level (level : Nat)
  | pact
deriving DecidableEq

/-- The name shown to players. -/
def SlotLevel.title : SlotLevel → String
  | level n => "level " ++ toString n
  | pact => "pact"

/-- Slots that are left, and how many there are at most. -/
structure SlotPool where
  value : Nat := 0
  max : Nat := 0
deriving DecidableEq

structure PactSlots where
  value : Nat := 0
  max : Nat := 0
  level : Nat := 0
deriving DecidableEq

structure SpellSlots where
  /-- The pools of the levels one to nine. -/
  levels : Vector SlotPool 9 := Vector.replicate 9 {}
  pact : PactSlots := {}
deriving DecidableEq

namespace SpellSlots

/-- The place of a level's pool. -/
def place? (level : Nat) : Option (Fin 9) :=
  if h : 1 ≤ level ∧ level ≤ 9 then some ⟨level - 1, by omega⟩ else none

/-- The pool of a level from one to nine. -/
def pool? (s : SpellSlots) (level : Nat) : Option SlotPool :=
  (place? level).map s.levels.get

/-- The slots left of a kind; there is no pool for a level outside one to nine. -/
def remaining? (s : SpellSlots) : SlotLevel → Option Nat
  | .pact => some s.pact.value
  | .level n => (s.pool? n).map (·.value)

/-- Sets the number of slots left of a kind, if there is a pool for it. -/
def setRemaining (s : SpellSlots) (slot : SlotLevel) (value : Nat) : SpellSlots :=
  match slot with
  | .pact => { s with pact := { s.pact with value := value } }
  | .level n =>
    match place? n with
    | some i => { s with levels := s.levels.set i { s.levels.get i with value := value } }
    | none => s

/-- The slots with one of a kind used, and how many of it are left; `none` if there was none. -/
def spend? (s : SpellSlots) (slot : SlotLevel) : Option (Nat × SpellSlots) :=
  match s.remaining? slot with
  | some (left + 1) => some (left, s.setRemaining slot left)
  | _ => none

/-- Only a kind of which some slot is left can be used. -/
theorem remaining?_of_spend? {s s' : SpellSlots} {slot : SlotLevel} {left : Nat}
    (h : s.spend? slot = some (left, s')) : s.remaining? slot = some (left + 1) := by
  rw [spend?] at h
  split at h
  · rename_i n hn
    cases h
    exact hn
  · cases h

/-- The slots left of every pool, in the order of the levels, and then of the pact pool. -/
def values (s : SpellSlots) : List Nat := s.levels.toList.map (·.value) ++ [s.pact.value]

end SpellSlots

end Tabletop
