/-!
# Ranges of whole numbers

Sheets and formulas hold whole numbers of 8, 32 and 64 bits. What they hold is kept in unbounded
numbers; the bounds are these.
-/

namespace Tabletop

/-- The greatest number of 8 bits. -/
def maxByte : Nat := 0xff

/-- How many numbers there are of 32 bits. -/
def wordCount : Nat := 0x100000000

/-- The greatest number of 32 bits, which is the greatest count that a formula can hold. -/
def maxCount : Nat := 0xffffffff

/-- The greatest number of 64 bits. -/
def maxIndex : Nat := 0xffffffffffffffff

/-- The greatest integer of 64 bits with a sign, which is the greatest constant that a formula can
hold. -/
def maxConstant : Nat := 0x7fffffffffffffff

/-- Whether an integer has 64 bits with a sign. -/
def isInteger64 (n : Int) : Bool := -maxConstant - 1 ≤ n && n ≤ maxConstant

/-- The nearest integer of 64 bits with a sign. -/
def clampInteger (n : Int) : Int := max (-maxConstant - 1) (min maxConstant n)

theorem isInteger64_iff {n : Int} : isInteger64 n = true ↔ clampInteger n = n := by
  simp only [isInteger64, clampInteger, Bool.and_eq_true, decide_eq_true_eq]
  omega

/-- The sum of numbers. -/
def sumOf : List Nat → Nat
  | [] => 0
  | n :: ns => n + sumOf ns

theorem sumOf_append (as bs : List Nat) : sumOf (as ++ bs) = sumOf as + sumOf bs := by
  induction as with
  | nil => exact (Nat.zero_add _).symm
  | cons a as ih => rw [List.cons_append, sumOf, sumOf, ih, Nat.add_assoc]

end Tabletop
