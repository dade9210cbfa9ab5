import Tabletop.Proofs.Number.Rounding
/-!
# The sign of zero

There are two zeros, which are equal as numbers. No operation that a formula uses tells them apart,
but for the sign of a zero that it yields: division by either of them is refused. So totals do not
depend on the signs of zeros. A rounded number that is multiplied by one and added to zero stays as
it is, but for that sign.
-/

namespace Tabletop.Double

/-- Equal as numbers: the two zeros count as one. -/
def SameNumber (x y : Double) : Prop := x = y ∨ x.isZero = true ∧ y.isZero = true

theorem isZero_eq_true_iff {x : Double} : x.isZero = true ↔ x = negativeZero ∨ x = finite 0 := by
  cases x with
  | finite q => simp [isZero]
  | negativeZero => simp [isZero]
  | nan => simp [isZero]
  | infinity _ => simp [isZero]

theorem isZero_zero (negative : Bool) : (zero negative).isZero = true := by
  cases negative with
  | false => rfl
  | true => rfl

namespace SameNumber

variable {x x' y y' z : Double}

theorem refl (x : Double) : SameNumber x x := Or.inl rfl

theorem zeros (h : x.isZero = true) (h' : y.isZero = true) : SameNumber x y := Or.inr ⟨h, h'⟩

theorem isZero_eq (h : SameNumber x y) : x.isZero = y.isZero := by
  rcases h with rfl | ⟨h, h'⟩
  · rfl
  · rw [h, h']

theorem trans (h : SameNumber x y) (h' : SameNumber y z) : SameNumber x z := by
  rcases h with rfl | ⟨left, middle⟩
  · exact h'
  · exact zeros left (h'.isZero_eq ▸ middle)

theorem symm (h : SameNumber x y) : SameNumber y x := by
  rcases h with rfl | ⟨h, h'⟩
  · exact refl _
  · exact zeros h' h

end SameNumber

/-! ## Operations with a zero -/

theorem ofRat_zero : ofRat 0 = finite 0 := if_pos rfl

theorem zero_add_negativeZero : finite 0 + negativeZero = finite 0 := by
  change ofRat (0 + 0) = finite 0
  rw [add_zero, ofRat_zero]

theorem negativeZero_add_zero : negativeZero + finite 0 = finite 0 := by
  change ofRat (0 + 0) = finite 0
  rw [add_zero, ofRat_zero]

variable {z : Double}

theorem zero_add_same (h : z.isZero = true) (y : Double) : SameNumber (z + y) (finite 0 + y) := by
  rcases isZero_eq_true_iff.1 h with rfl | rfl
  · cases y with
    | negativeZero =>
      rw [zero_add_negativeZero]
      exact .zeros rfl rfl
    | _ => exact .refl _
  · exact .refl _

theorem add_zero_same (x : Double) (h : z.isZero = true) : SameNumber (x + z) (x + finite 0) := by
  rcases isZero_eq_true_iff.1 h with rfl | rfl
  · cases x with
    | negativeZero =>
      rw [negativeZero_add_zero]
      exact .zeros rfl rfl
    | _ => exact .refl _
  · exact .refl _

theorem zero_mul_same (h : z.isZero = true) (y : Double) : SameNumber (z * y) (finite 0 * y) := by
  rcases isZero_eq_true_iff.1 h with rfl | rfl
  · cases y with
    | nan => exact .refl _
    | infinity _ => exact .refl _
    | negativeZero => exact .zeros rfl rfl
    | finite q =>
      have left : (negativeZero * finite q).isZero = true := by
        change (zero _).isZero = true
        exact isZero_zero _
      have right : (finite 0 * finite q).isZero = true := by
        change (zero _).isZero = true
        exact isZero_zero _
      exact .zeros left right
  · exact .refl _

theorem finite_mul_zero (q : ℚ) (h : z.isZero = true) : (finite q * z).isZero = true := by
  have product : finite q * z = zero ((finite q).isNegative != z.isNegative) := by
    rcases isZero_eq_true_iff.1 h with rfl | rfl
    · exact if_pos (Bool.or_true _)
    · exact if_pos (Bool.or_true _)
  rw [product]
  exact isZero_zero _

theorem mul_zero_same (x : Double) (h : z.isZero = true) : SameNumber (x * z) (x * finite 0) := by
  rcases isZero_eq_true_iff.1 h with rfl | rfl
  · cases x with
    | finite q => exact .zeros (finite_mul_zero q rfl) (finite_mul_zero q rfl)
    | negativeZero => exact .zeros rfl rfl
    | nan => exact .refl _
    | infinity _ => exact .refl _
  · exact .refl _

theorem zero_div_same (h : z.isZero = true) {y : Double} (nonzero : y.isZero = false) :
    SameNumber (z / y) (finite 0 / y) := by
  rcases isZero_eq_true_iff.1 h with rfl | rfl
  · cases y with
    | nan => exact .refl _
    | infinity b =>
      exact .zeros (isZero_zero (true != b)) (isZero_zero ((finite 0).isNegative != b))
    | negativeZero => cases nonzero
    | finite q =>
      have quotient {u : Double} (zero_u : u = negativeZero ∨ u = finite 0) :
          (u / finite q).isZero = true := by
        have eq : u / finite q = zero (u.isNegative != (finite q).isNegative) := by
          rcases zero_u with rfl | rfl
          · exact if_neg (Bool.eq_false_iff.1 nonzero)
          · exact if_neg (Bool.eq_false_iff.1 nonzero)
        rw [eq]
        exact isZero_zero _
      exact .zeros (quotient (Or.inl rfl)) (quotient (Or.inr rfl))
  · exact .refl _

namespace SameNumber

variable {x x' y y' : Double}

theorem add (h : SameNumber x x') (h' : SameNumber y y') : SameNumber (x + y) (x' + y') := by
  have left : SameNumber (x + y) (x' + y) := by
    rcases h with rfl | ⟨h, h'⟩
    · exact refl _
    · exact (zero_add_same h y).trans (zero_add_same h' y).symm
  have right : SameNumber (x' + y) (x' + y') := by
    rcases h' with rfl | ⟨h, h'⟩
    · exact refl _
    · exact (add_zero_same x' h).trans (add_zero_same x' h').symm
  exact left.trans right

theorem mul (h : SameNumber x x') (h' : SameNumber y y') : SameNumber (x * y) (x' * y') := by
  have left : SameNumber (x * y) (x' * y) := by
    rcases h with rfl | ⟨h, h'⟩
    · exact refl _
    · exact (zero_mul_same h y).trans (zero_mul_same h' y).symm
  have right : SameNumber (x' * y) (x' * y') := by
    rcases h' with rfl | ⟨h, h'⟩
    · exact refl _
    · exact (mul_zero_same x' h).trans (mul_zero_same x' h').symm
  exact left.trans right

/-- A divisor that is not zero is the same only as itself. -/
theorem div (h : SameNumber x x') (h' : SameNumber y y') (nonzero : y.isZero = false) :
    SameNumber (x / y) (x' / y') := by
  rcases h' with rfl | ⟨zero, -⟩
  · rcases h with rfl | ⟨h, h'⟩
    · exact refl _
    · exact (zero_div_same h nonzero).trans (zero_div_same h' nonzero).symm
  · cases zero.symm.trans nonzero

/-- Rounding to integers keeps zeros. -/
theorem roundWith {round : ℚ → Int} (fixed : round 0 = 0) (h : SameNumber x y) :
    SameNumber (Double.roundWith round x) (Double.roundWith round y) := by
  have zero {z : Double} (h : z.isZero = true) : (Double.roundWith round z).isZero = true := by
    rcases isZero_eq_true_iff.1 h with rfl | rfl
    · rfl
    · rw [Double.roundWith, if_pos fixed]
      exact isZero_zero _
  rcases h with rfl | ⟨h, h'⟩
  · exact refl _
  · exact zeros (zero h) (zero h')

theorem abs (h : SameNumber x y) : SameNumber x.abs y.abs := by
  have zero {z : Double} (h : z.isZero = true) : z.abs.isZero = true := by
    rcases isZero_eq_true_iff.1 h with rfl | rfl
    · rfl
    · decide +kernel
  rcases h with rfl | ⟨h, h'⟩
  · exact refl _
  · exact zeros (zero h) (zero h')

/-- Numbers that are the same have the same integer below them. -/
theorem toInteger_floor (h : SameNumber x y) : x.floor.toInteger = y.floor.toInteger := by
  have zero {z : Double} (h : z.isZero = true) : z.floor.toInteger = 0 := by
    rcases isZero_eq_true_iff.1 h with rfl | rfl
    · rfl
    · decide +kernel
  rcases h with rfl | ⟨h, h'⟩
  · rfl
  · rw [zero h, zero h']

end SameNumber

theorem one_mul_rounded {v : Double} (h : Rounded v) : finite 1 * v = v := by
  cases v with
  | nan => rfl
  | infinity b =>
    cases b with
    | false => rfl
    | true => rfl
  | negativeZero => rfl
  | finite q =>
    by_cases zero_q : q = 0
    · subst zero_q
      decide +kernel
    · have nonzero : ¬((finite 1).isZero || (finite q).isZero) = true := by simp [isZero, zero_q]
      have product : finite 1 * finite q = ofRat (1 * q) := if_neg nonzero
      rw [product, one_mul, ofRat_of_fits h]

/-- A rounded number is the same as the sum of it alone. -/
theorem zero_add_one_mul {v : Double} (h : Rounded v) : SameNumber (finite 0 + finite 1 * v) v := by
  rw [one_mul_rounded h]
  cases v with
  | nan => exact .refl _
  | infinity _ => exact .refl _
  | negativeZero =>
    rw [zero_add_negativeZero]
    exact .zeros rfl rfl
  | finite q =>
    have sum : finite 0 + finite q = finite q := by
      change ofRat (0 + q) = finite q
      rw [zero_add, ofRat_of_fits h]
    rw [sum]
    exact .refl _

end Tabletop.Double
