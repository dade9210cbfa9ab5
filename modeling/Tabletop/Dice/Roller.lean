/-!
# Dice rollers

A roller shows one face of one die at a time.
-/

namespace Tabletop

/-- States from which a die can be rolled. -/
class Roller (σ : Type) where
  /-- The face shown by a die with so many faces, and the state after it. -/
  roll : (faces : Nat) → σ → Nat × σ

/-- The roller whose dice all show their highest face. -/
structure Maximizer where
deriving DecidableEq

instance : Roller Maximizer where
  roll faces s := (faces, s)

/-- A queue of faces that are shown in order. -/
structure Script where
  faces : List Nat
deriving DecidableEq

namespace Script

/-- The nearest face that a die has. -/
def clampFace (faces value : Nat) : Nat := min faces (max 1 value)

theorem clampFace_le (faces value : Nat) : clampFace faces value ≤ faces := Nat.min_le_left _ _

theorem one_le_clampFace {faces : Nat} (h : 1 ≤ faces) (value : Nat) : 1 ≤ clampFace faces value :=
  Nat.le_min.2 ⟨h, Nat.le_max_left _ _⟩

/-- A face that the die has is shown as it is. -/
theorem clampFace_of_le {faces value : Nat} (h₁ : 1 ≤ value) (h₂ : value ≤ faces) :
    clampFace faces value = value := by
  rw [clampFace, Nat.max_eq_right h₁, Nat.min_eq_right h₂]

/-- The next face of the queue, kept within the faces of the die; the face `1` when the queue is
empty. -/
def roll (faces : Nat) (s : Script) : Nat × Script :=
  match s.faces with
  | [] => (1, s)
  | value :: rest => (clampFace faces value, ⟨rest⟩)

/-- Queues more faces behind the others. -/
def extend (s : Script) (faces : List Nat) : Script := ⟨s.faces ++ faces⟩

def remaining (s : Script) : Nat := s.faces.length

theorem remaining_extend (s : Script) (faces : List Nat) :
    (s.extend faces).remaining = s.remaining + faces.length := List.length_append

end Script

instance : Roller Script := ⟨Script.roll⟩

end Tabletop
