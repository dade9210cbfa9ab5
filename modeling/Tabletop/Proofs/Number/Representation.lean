import Tabletop.Proofs.Number.SignedZero
/-!
# Doubles that stand for rationals

Where the exact result of an operation is a double, the operation yields it: rounding does nothing
then, but for the sign of a zero.
-/

namespace Tabletop.Double

/-- Whether a double stands for the number. -/
def isDouble (q : ℚ) : Bool := ofRat q = finite q

theorem isDouble_iff {q : ℚ} : isDouble q = true ↔ Fits q :=
  decide_eq_true_iff.trans ⟨fits_of_ofRat, ofRat_of_fits⟩

/-- Whether the number is an integer up to `2 ^ 53`. -/
def isSafeInteger (q : ℚ) : Bool := q.den = 1 ∧ |q.num| ≤ 2 ^ 53

/-- All integers up to `2 ^ 53` are doubles. -/
theorem isDouble_of_isSafeInteger (q : ℚ) (h : isSafeInteger q = true) : isDouble q = true := by
  obtain ⟨whole, bound⟩ := of_decide_eq_true h
  rw [isDouble_iff, ← Rat.den_eq_one_iff q |>.1 whole]
  exact fits_intCast bound

/-- The double stands for a rational number that is a double. -/
structure Represents (x : Double) (q : ℚ) : Prop where
  same : x.SameNumber (finite q)
  fits : Fits q

namespace Represents

variable {x y : Double} {a b : ℚ}

theorem ofRat {q : ℚ} (fits : Fits q) : (ofRat q).Represents q := by
  rw [ofRat_of_fits fits]
  exact ⟨.refl _, fits⟩

theorem isZero_iff (h : x.Represents a) : x.isZero = true ↔ a = 0 := by
  rw [h.same.isZero_eq]
  exact decide_eq_true_iff

theorem add (hx : x.Represents a) (hy : y.Represents b) (fits : Fits (a + b)) :
    (x + y).Represents (a + b) :=
  ⟨(hx.same.add hy.same).trans (ofRat fits).same, fits⟩

theorem mul (hx : x.Represents a) (hy : y.Represents b) (fits : Fits (a * b)) :
    (x * y).Represents (a * b) := by
  refine ⟨(hx.same.mul hy.same).trans ?_, fits⟩
  by_cases zero : ((finite a).isZero || (finite b).isZero) = true
  · have product : finite a * finite b = Double.zero _ := if_pos zero
    have vanishes : (finite (a * b)).isZero = true := by
      rw [Bool.or_eq_true] at zero
      exact decide_eq_true (mul_eq_zero.2 (zero.imp of_decide_eq_true of_decide_eq_true))
    rw [product]
    exact .zeros (isZero_zero _) vanishes
  · have product : finite a * finite b = Double.ofRat (a * b) := if_neg zero
    rw [product]
    exact (ofRat fits).same

theorem div (hx : x.Represents a) (hy : y.Represents b) (nonzero : b ≠ 0) (fits : Fits (a / b)) :
    (x / y).Represents (a / b) := by
  have divisor : y.isZero = false := Bool.eq_false_iff.2 fun zero => nonzero (hy.isZero_iff.1 zero)
  refine ⟨(hx.same.div hy.same divisor).trans ?_, fits⟩
  have positive : ¬(finite b).isZero = true := by
    rw [← hy.same.isZero_eq, divisor]
    exact Bool.false_ne_true
  by_cases zero : (finite a).isZero = true
  · have quotient : finite a / finite b = Double.zero _ := (if_neg positive).trans (if_pos zero)
    have vanishes : (finite (a / b)).isZero = true := by
      have zero : a = 0 := of_decide_eq_true zero
      rw [zero, zero_div]
      rfl
    rw [quotient]
    exact .zeros (isZero_zero _) vanishes
  · have quotient : finite a / finite b = Double.ofRat (a / b) :=
      (if_neg positive).trans (if_neg zero)
    rw [quotient]
    exact (ofRat fits).same

theorem fits_neg {q : ℚ} (fits : Fits q) : Fits (-q) := by
  obtain ⟨m, e, small, least, magnitude, below⟩ := fits
  exact ⟨m, e, small, least, by rwa [abs_neg], by rwa [abs_neg]⟩

/-- A product is added with its sign. -/
theorem addSigned (hx : x.Represents a) (hy : y.Represents b) (subtracted : Bool)
    (fits : Fits (if subtracted then a - b else a + b)) :
    (x + finite (if subtracted then -1 else 1) * y).Represents
      (if subtracted then a - b else a + b) := by
  have unit (n : Int) (small : |n| ≤ 2 ^ 53) : (finite n).Represents n :=
    ⟨.refl _, fits_intCast small⟩
  cases subtracted with
  | true =>
    have opposite : (finite (-1) * y).Represents (-1 * b) :=
      mul (by simpa using unit (-1) (by decide)) hy (by simpa using fits_neg hy.fits)
    have difference : a - b = a + -1 * b := by ring
    simp only [if_true] at fits ⊢
    rw [difference] at fits ⊢
    exact hx.add opposite fits
  | false =>
    have same : (finite 1 * y).Represents (1 * b) :=
      mul (by simpa using unit 1 (by decide)) hy (by simpa using hy.fits)
    simp only [Bool.false_eq_true, if_false] at fits ⊢
    rw [← one_mul b] at fits ⊢
    exact hx.add same fits

theorem toInteger_floor {q : ℚ} (h : x.Represents q) :
    x.floor.toInteger = clampInteger q.floor := by
  rw [h.same.toInteger_floor]
  change (roundWith Rat.floor (.finite q)).toInteger = _
  rw [roundWith]
  split
  · next zero =>
    rw [zero]
    by_cases negative : q < 0
    · rw [decide_eq_true negative]
      rfl
    · rw [decide_eq_false negative]
      decide +kernel
  · change clampInteger _ = _
    rw [Rat.ceil_intCast, Rat.floor_intCast, ite_self]

end Represents

end Tabletop.Double
