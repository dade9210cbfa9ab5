import Tabletop.Dice.Evaluate
import Tabletop.Proofs.Number.SignedZero
/-!
# The order of doubles

Rounding keeps the order of numbers, and so do the operations on doubles, apart from the signs of
what is multiplied or divided. Overflow is the reason for the order that is used here: it puts what
is not a number at the top, beside infinity, since that is where sums and products of great numbers
end.
-/

namespace Tabletop.Double

/-! ## Rounding -/

theorem nearestEven_eq_or (a b : Nat) : nearestEven a b = a / b ∨ nearestEven a b = a / b + 1 := by
  unfold nearestEven
  dsimp only
  split
  · exact Or.inl rfl
  · split
    · exact Or.inr rfl
    · omega

theorem nearestEven_mono {a b c d : Nat} (hb : 0 < b) (hd : 0 < d)
    (h : (a / b : ℚ) ≤ c / d) : nearestEven a b ≤ nearestEven c d := by
  have hb' : (0 : ℚ) < b := Nat.cast_pos.2 hb
  have hd' : (0 : ℚ) < d := Nat.cast_pos.2 hd
  have cross : a * d ≤ c * b := by
    rw [div_le_div_iff₀ hb' hd'] at h
    exact_mod_cast h
  have left := Nat.div_add_mod a b
  have right := Nat.div_add_mod c d
  have quotients : a / b ≤ c / d := by
    rw [Nat.le_div_iff_mul_le hd, ← Nat.mul_le_mul_right_iff hb]
    calc a / b * d * b = a / b * b * d := Nat.mul_right_comm _ _ _
      _ ≤ a * d := Nat.mul_le_mul_right d (Nat.div_mul_le_self a b)
      _ ≤ c * b := cross
  rcases Nat.lt_or_eq_of_le quotients with below | same
  · rcases nearestEven_eq_or a b with eq | eq <;> rcases nearestEven_eq_or c d with eq' | eq' <;>
      omega
  · -- the remainders decide, as parts of the divisors
    have remainders : a % b * d ≤ c % d * b := by
      have expand : b * (a / b) * d + a % b * d ≤ d * (c / d) * b + c % d * b := by
        rw [← Nat.add_mul, ← Nat.add_mul, left, right]
        exact cross
      have whole : b * (a / b) * d = d * (c / d) * b := by
        rw [same]
        ring
      omega
    have above (h : b < 2 * (a % b)) : d < 2 * (c % d) := by
      by_contra le
      nlinarith
    have middle (h : b = 2 * (a % b)) : d ≤ 2 * (c % d) := by
      by_contra lt
      nlinarith
    have parity := Nat.mod_lt (a / b) two_pos
    unfold nearestEven
    dsimp only
    rw [same] at parity ⊢
    split
    · split
      · exact Nat.le_refl _
      · split <;> omega
    · split
      · next first second =>
        rw [if_neg (by have := above second; omega), if_pos (above second)]
      · next first second =>
        have tie := middle (by omega)
        rw [if_neg (by omega)]
        split <;> omega

theorem le_nearestEven {a b least : Nat} (hb : 0 < b) (h : (least : ℚ) ≤ a / b) :
    least ≤ nearestEven a b := by
  have exact_least : ((least : ℕ) : ℚ) / (1 : ℕ) = least := by rw [Nat.cast_one, div_one]
  rw [← nearestEven_eq one_pos exact_least]
  exact nearestEven_mono one_pos hb (exact_least.trans_le h)

/-- How far from zero a number is rounded to, whatever its sign. -/
def magnitude (q : ℚ) : ℚ := significand q * 2 ^ unitExponent q

theorem magnitude_nonneg (q : ℚ) : 0 ≤ magnitude q :=
  mul_nonneg (Nat.cast_nonneg _) (two_zpow_pos _).le

theorem magnitude_neg (q : ℚ) : magnitude (-q) = magnitude q := by
  simp only [magnitude, significand, unitExponent, Rat.num_neg_eq_neg_num, Int.natAbs_neg,
    Rat.den_neg_eq_den]

theorem magnitude_zero : magnitude 0 = 0 := by
  have none : significand 0 = 0 := by
    refine nearestEven_eq (denominator_pos 0) ?_
    rw [significand_units, abs_zero, zero_div, Nat.cast_zero]
  rw [magnitude, none, Nat.cast_zero, zero_mul]

/-- Numbers of one spacing are rounded in their order, because their significands are. Of two
spacings the greater one begins where the lesser one ends. -/
theorem magnitude_mono {p q : ℚ} (hp : 0 ≤ p) (h : p ≤ q) : magnitude p ≤ magnitude q := by
  rcases hp.eq_or_lt with rfl | positive
  · rw [magnitude_zero]
    exact magnitude_nonneg q
  have hp' := positive.ne'
  have hq' := (positive.trans_le h).ne'
  obtain ⟨lower, -⟩ := binaryExponent_abs hp'
  obtain ⟨lower', upper'⟩ := binaryExponent_abs hq'
  rw [abs_of_nonneg hp] at lower
  rw [abs_of_nonneg (hp.trans h)] at lower' upper'
  have exponents : binaryExponent p.num.natAbs p.den < binaryExponent q.num.natAbs q.den + 1 :=
    (zpow_lt_zpow_iff_right₀ one_lt_two).1 ((lower.trans h).trans_lt upper')
  have units : unitExponent p ≤ unitExponent q := by
    unfold unitExponent spacing
    omega
  rcases units.eq_or_lt with same | below
  · have significands : significand p ≤ significand q := by
      refine nearestEven_mono (denominator_pos p) (denominator_pos q) ?_
      rw [significand_units, significand_units, same, abs_of_nonneg hp, abs_of_nonneg (hp.trans h)]
      exact div_le_div_of_nonneg_right h (two_zpow_pos _).le
    rw [magnitude, magnitude, same]
    exact mul_le_mul_of_nonneg_right (Nat.cast_le.2 significands) (two_zpow_pos _).le
  · have normal : binaryExponent q.num.natAbs q.den = 52 + unitExponent q := by
      unfold unitExponent spacing at *
      omega
    have significant : 2 ^ 52 ≤ significand q := by
      refine le_nearestEven (denominator_pos q) ?_
      rw [significand_units, le_div_iff₀ (two_zpow_pos _), abs_of_nonneg (hp.trans h),
        Nat.cast_pow, Nat.cast_two, ← zpow_natCast, ← zpow_add₀ two_ne_zero]
      exact normal ▸ lower'
    calc magnitude p ≤ 2 ^ 53 * 2 ^ unitExponent p := by
          refine mul_le_mul_of_nonneg_right ?_ (two_zpow_pos _).le
          exact_mod_cast significand_le hp'
      _ = 2 ^ 52 * 2 ^ (unitExponent p + 1) := by
          rw [zpow_add₀ two_ne_zero]
          ring
      _ ≤ 2 ^ 52 * 2 ^ unitExponent q := by
          refine mul_le_mul_of_nonneg_left ?_ (by positivity)
          exact zpow_le_zpow_right₀ one_le_two below
      _ ≤ magnitude q := by
          refine mul_le_mul_of_nonneg_right ?_ (two_zpow_pos _).le
          exact_mod_cast significant

/-! ## The order -/

/-- Where a double stands among the others. -/
def level : Double → WithBot (WithTop ℚ)
  | nan => ⊤
  | infinity negative => if negative then ⊥ else ⊤
  | negativeZero => ((0 : ℚ) : WithTop ℚ)
  | finite q => (q : WithTop ℚ)

/-- A magnitude that is out of range is infinite. -/
def ranged (m : ℚ) : WithTop ℚ := if bound ≤ m then ⊤ else m

theorem ranged_mono {m n : ℚ} (h : m ≤ n) : ranged m ≤ ranged n := by
  unfold ranged
  split
  · next above => rw [if_pos (above.trans h)]
  · split
    · exact le_top
    · exact WithTop.coe_le_coe.2 h

theorem level_zero (negative : Bool) : (zero negative).level = ((0 : ℚ) : WithTop ℚ) := by
  cases negative with
  | false => rfl
  | true => rfl

theorem level_ofRat_of_nonneg {q : ℚ} (h : 0 ≤ q) : (ofRat q).level = ranged (magnitude q) := by
  rcases h.eq_or_lt with rfl | positive
  · rw [ofRat_zero, magnitude_zero, ranged, if_neg (not_le.2 bound_pos)]
    rfl
  · have sign : decide (q < 0) = false := decide_eq_false (not_lt.2 h)
    rw [ofRat_eq positive.ne', sign, if_neg (not_lt.2 h)]
    by_cases none : significand q = 0
    · have small : magnitude q = 0 := by rw [magnitude, none, Nat.cast_zero, zero_mul]
      rw [if_pos none, small, ranged, if_neg (not_le.2 bound_pos), level_zero]
    · rw [if_neg none]
      unfold ranged magnitude
      split
      · rfl
      · rfl

theorem level_ofRat_of_neg {q : ℚ} (h : q < 0) :
    (ofRat q).level =
      if bound ≤ magnitude q then (⊥ : WithBot (WithTop ℚ))
      else ((-magnitude q : ℚ) : WithTop ℚ) := by
  have sign : decide (q < 0) = true := decide_eq_true h
  rw [ofRat_eq h.ne, sign, if_pos h]
  by_cases none : significand q = 0
  · have small : magnitude q = 0 := by rw [magnitude, none, Nat.cast_zero, zero_mul]
    rw [if_pos none, small, if_neg (not_le.2 bound_pos), level_zero, neg_zero]
  · rw [if_neg none]
    unfold magnitude
    split
    · rfl
    · rfl

/-- Rounding keeps the order. -/
theorem level_ofRat_mono {p q : ℚ} (h : p ≤ q) : (ofRat p).level ≤ (ofRat q).level := by
  by_cases nonneg : 0 ≤ p
  · rw [level_ofRat_of_nonneg nonneg, level_ofRat_of_nonneg (nonneg.trans h)]
    exact WithBot.coe_le_coe.2 (ranged_mono (magnitude_mono nonneg h))
  · have hp := not_le.1 nonneg
    rw [level_ofRat_of_neg hp]
    split
    · exact bot_le
    · next small =>
      by_cases nonneg' : 0 ≤ q
      · rw [level_ofRat_of_nonneg nonneg']
        refine WithBot.coe_le_coe.2 (le_trans ?_ (ranged_mono (magnitude_nonneg q)))
        rw [ranged, if_neg (not_le.2 bound_pos)]
        exact WithTop.coe_le_coe.2 (neg_nonpos.2 (magnitude_nonneg p))
      · have hq := not_le.1 nonneg'
        have smaller : magnitude q ≤ magnitude p := by
          rw [← magnitude_neg q, ← magnitude_neg p]
          exact magnitude_mono (neg_nonneg.2 hq.le) (neg_le_neg h)
        rw [level_ofRat_of_neg hq, if_neg (not_le.2 (smaller.trans_lt (not_le.1 small)))]
        exact WithBot.coe_le_coe.2 (WithTop.coe_le_coe.2 (neg_le_neg smaller))

/-- Not above another number. -/
def AtMost (x y : Double) : Prop := x.level ≤ y.level

/-- Not below zero. -/
abbrev IsNonneg (x : Double) : Prop := (finite 0).AtMost x

theorem AtMost.refl (x : Double) : x.AtMost x := le_refl x.level

theorem AtMost.trans {x y z : Double} (h : x.AtMost y) (h' : y.AtMost z) : x.AtMost z :=
  le_trans h h'

/-- A double that stands for a rational number. -/
def IsNumber (x : Double) : Prop := x.level = ((x.value : ℚ) : WithTop ℚ)

theorem isNumber_finite (q : ℚ) : (finite q).IsNumber := rfl

theorem isNumber_negativeZero : negativeZero.IsNumber := rfl

theorem level_cases (x : Double) : x.level = ⊤ ∨ x = infinity true ∨ x.IsNumber := by
  cases x with
  | nan => exact Or.inl rfl
  | infinity negative =>
    cases negative with
    | false => exact Or.inl rfl
    | true => exact Or.inr (Or.inl rfl)
  | negativeZero => exact Or.inr (Or.inr rfl)
  | finite q => exact Or.inr (Or.inr rfl)

theorem level_eq_top_iff {x : Double} : x.level = ⊤ ↔ x = nan ∨ x = infinity false := by
  cases x with
  | nan => simp [level]
  | infinity negative => cases negative <;> simp [level]
  | negativeZero => simp [level, ← WithBot.coe_top]
  | finite q => simp [level, ← WithBot.coe_top]

theorem IsNumber.not_top {x : Double} (h : x.IsNumber) : x.level ≠ ⊤ := by
  intro top
  rcases level_eq_top_iff.1 top with rfl | rfl
  · cases WithTop.coe_ne_top (WithBot.coe_injective h).symm
  · cases WithTop.coe_ne_top (WithBot.coe_injective h).symm

theorem atMost_of_top {x y : Double} (h : y.level = ⊤) : x.AtMost y := by
  rw [AtMost, h]
  exact le_top

theorem atMost_of_bottom {x y : Double} (h : x = infinity true) : x.AtMost y := by
  subst h
  exact bot_le

theorem IsNumber.atMost_iff {x y : Double} (hx : x.IsNumber) (hy : y.IsNumber) :
    x.AtMost y ↔ x.value ≤ y.value := by
  rw [AtMost, hx, hy, WithBot.coe_le_coe, WithTop.coe_le_coe]

/-- Of two doubles in their order the greater one is at the top, or the lesser one is at the bottom,
or both stand for rational numbers. -/
theorem AtMost.cases {x y : Double} (h : x.AtMost y) :
    y.level = ⊤ ∨ x = infinity true ∨ x.IsNumber ∧ y.IsNumber ∧ x.value ≤ y.value := by
  rcases y.level_cases with top | rfl | number
  · exact Or.inl top
  · rcases x.level_cases with top | bottom | number
    · rw [AtMost, top] at h
      exact Or.inl (top_le_iff.1 h)
    · exact Or.inr (Or.inl bottom)
    · rw [AtMost, number] at h
      exact absurd (le_bot_iff.1 h) WithBot.coe_ne_bot
  · rcases x.level_cases with top | bottom | number'
    · rw [AtMost, top] at h
      exact Or.inl (top_le_iff.1 h)
    · exact Or.inr (Or.inl bottom)
    · exact Or.inr (Or.inr ⟨number', number, (number'.atMost_iff number).1 h⟩)

theorem isNumber_iff {x : Double} : x.IsNumber ↔ x = negativeZero ∨ ∃ q, x = finite q := by
  constructor
  · intro h
    cases x with
    | nan => exact absurd h (by simp [IsNumber, level, ← WithBot.coe_top])
    | infinity negative =>
      cases negative <;> exact absurd h (by simp [IsNumber, level, ← WithBot.coe_top])
    | negativeZero => exact Or.inl rfl
    | finite q => exact Or.inr ⟨q, rfl⟩
  · rintro (rfl | ⟨q, rfl⟩)
    · exact isNumber_negativeZero
    · exact isNumber_finite q

theorem IsNonneg.cases {x : Double} (h : x.IsNonneg) : x.level = ⊤ ∨ x.IsNumber ∧ 0 ≤ x.value := by
  rcases AtMost.cases h with top | bottom | ⟨-, number, nonneg⟩
  · exact Or.inl top
  · cases bottom
  · exact Or.inr ⟨number, nonneg⟩

theorem isNonneg_of_number {x : Double} (number : x.IsNumber) (h : 0 ≤ x.value) : x.IsNonneg :=
  ((isNumber_finite 0).atMost_iff number).2 h

/-! ## Sums -/

theorem level_add_of_top {x y : Double} (h : x.level = ⊤ ∨ y.level = ⊤) : (x + y).level = ⊤ := by
  change (add x y).level = ⊤
  rcases h with h | h
  · rcases level_eq_top_iff.1 h with rfl | rfl
    · rfl
    · rcases y with _ | ⟨_ | _⟩ | _ | _ <;> rfl
  · rcases level_eq_top_iff.1 h with rfl | rfl
    · cases x <;> rfl
    · rcases x with _ | ⟨_ | _⟩ | _ | _ <;> rfl

theorem add_bottom {x y : Double} (h : x = infinity true ∨ y = infinity true)
    (low : x.level ≠ ⊤) (low' : y.level ≠ ⊤) : x + y = infinity true := by
  change add x y = infinity true
  rcases h with rfl | rfl
  · rcases y with _ | ⟨_ | _⟩ | _ | _
    · exact absurd rfl low'
    · exact absurd rfl low'
    all_goals rfl
  · rcases x with _ | ⟨_ | _⟩ | _ | _
    · exact absurd rfl low
    · exact absurd rfl low
    all_goals rfl

theorem level_add_of_number {x y : Double} (hx : x.IsNumber) (hy : y.IsNumber) :
    (x + y).level = (ofRat (x.value + y.value)).level := by
  rcases isNumber_iff.1 hx with rfl | ⟨p, rfl⟩ <;> rcases isNumber_iff.1 hy with rfl | ⟨q, rfl⟩
  · change negativeZero.level = (ofRat (0 + 0)).level
    rw [add_zero, ofRat_zero]
    rfl
  all_goals rfl

theorem AtMost.not_top {x y : Double} (h : x.AtMost y) (low : y.level ≠ ⊤) : x.level ≠ ⊤ :=
  fun top => low (top_le_iff.1 (top ▸ h))

theorem AtMost.add {x x' y y' : Double} (h : x.AtMost x') (h' : y.AtMost y') :
    (x + y).AtMost (x' + y') := by
  by_cases top : x'.level = ⊤ ∨ y'.level = ⊤
  · exact atMost_of_top (level_add_of_top top)
  obtain ⟨low, low'⟩ := not_or.1 top
  by_cases bottom : x = infinity true ∨ y = infinity true
  · exact atMost_of_bottom (add_bottom bottom (h.not_top low) (h'.not_top low'))
  obtain ⟨high, high'⟩ := not_or.1 bottom
  obtain ⟨hx, hx', le⟩ := (h.cases.resolve_left low).resolve_left high
  obtain ⟨hy, hy', le'⟩ := (h'.cases.resolve_left low').resolve_left high'
  rw [AtMost, level_add_of_number hx hy, level_add_of_number hx' hy']
  exact level_ofRat_mono (add_le_add le le')

/-! ## Products -/

theorem level_mul_of_top {x y : Double} (h : x.level = ⊤) (nonneg : y.IsNonneg) :
    (x * y).level = ⊤ := by
  change (mul x y).level = ⊤
  rcases level_eq_top_iff.1 h with rfl | rfl
  · rfl
  · rcases nonneg.cases with top | ⟨number, nonneg⟩
    · rcases level_eq_top_iff.1 top with rfl | rfl <;> rfl
    · rcases isNumber_iff.1 number with rfl | ⟨q, rfl⟩
      · rfl
      · have sign : (finite q).isNegative = false := decide_eq_false (not_lt.2 nonneg)
        unfold mul
        rw [sign]
        dsimp only
        split <;> rfl

theorem mul_swap (x y : Double) : x * y = y * x := by
  change mul x y = mul y x
  have signs : (x.isNegative != y.isNegative) = (y.isNegative != x.isNegative) := bne_comm
  rcases x with _ | _ | _ | p <;> rcases y with _ | _ | _ | q <;> unfold mul <;> rw [signs]
  case finite.finite =>
    dsimp only
    rw [Bool.or_comm, mul_comm]
  all_goals simp [isZero]

theorem value_of_isZero {x : Double} (h : x.isZero = true) : x.value = 0 := by
  rcases isZero_eq_true_iff.1 h with rfl | rfl
  · rfl
  · rfl

theorem level_mul_of_number {x y : Double} (hx : x.IsNumber) (hy : y.IsNumber) :
    (x * y).level = (ofRat (x.value * y.value)).level := by
  have eq : x * y = if x.isZero || y.isZero then zero (x.isNegative != y.isNegative)
      else ofRat (x.value * y.value) := by
    rcases isNumber_iff.1 hx with rfl | ⟨p, rfl⟩
    · rcases isNumber_iff.1 hy with rfl | ⟨q, rfl⟩ <;> rfl
    · rcases isNumber_iff.1 hy with rfl | ⟨q, rfl⟩ <;> rfl
  rw [eq]
  split
  · next vanishes =>
    have product : x.value * y.value = 0 := by
      rcases Bool.or_eq_true_iff.1 vanishes with h | h
      · rw [value_of_isZero h, zero_mul]
      · rw [value_of_isZero h, mul_zero]
    rw [product, ofRat_zero, level_zero]
    rfl
  · rfl

/-- A product grows with its factors where they are not negative. -/
theorem AtMost.mul {x x' y y' : Double} (h : x.AtMost x') (h' : y.AtMost y') (nonneg : x.IsNonneg)
    (nonneg' : y.IsNonneg) : (x * y).AtMost (x' * y') := by
  by_cases top : x'.level = ⊤
  · exact atMost_of_top (level_mul_of_top top (nonneg'.trans h'))
  by_cases top' : y'.level = ⊤
  · rw [mul_swap x']
    exact atMost_of_top (level_mul_of_top top' (nonneg.trans h))
  obtain ⟨hx, px⟩ := nonneg.cases.resolve_left (h.not_top top)
  obtain ⟨hy, py⟩ := nonneg'.cases.resolve_left (h'.not_top top')
  obtain ⟨hx', -⟩ := IsNonneg.cases (nonneg.trans h) |>.resolve_left top
  obtain ⟨hy', -⟩ := IsNonneg.cases (nonneg'.trans h') |>.resolve_left top'
  rw [AtMost, level_mul_of_number hx hy, level_mul_of_number hx' hy']
  have le := (hx.atMost_iff hx').1 h
  exact level_ofRat_mono (mul_le_mul le ((hy.atMost_iff hy').1 h') py (px.trans le))

/-- A product with a positive number grows with the other factor. -/
theorem AtMost.mul_positive {x y : Double} (h : x.AtMost y) {c : ℚ} (positive : 0 < c) :
    (x * finite c).AtMost (y * finite c) := by
  rcases h.cases with top | rfl | ⟨hx, hy, le⟩
  · exact atMost_of_top (level_mul_of_top top (isNonneg_of_number (isNumber_finite c) positive.le))
  · refine atMost_of_bottom ?_
    change Double.mul (infinity true) (finite c) = infinity true
    simp [Double.mul, isZero, isNegative, positive.ne', positive.le]
  · rw [AtMost, level_mul_of_number hx (isNumber_finite c),
      level_mul_of_number hy (isNumber_finite c)]
    exact level_ofRat_mono (mul_le_mul_of_nonneg_right le positive.le)

/-! ## Quotients -/

theorem level_div_of_number {x : Double} (hx : x.IsNumber) {c : ℚ} (nonzero : c ≠ 0) :
    (x / finite c).level = (ofRat (x.value / c)).level := by
  have divides : ¬(finite c).isZero = true := by simpa [isZero] using nonzero
  have eq : x / finite c = if x.isZero then zero (x.isNegative != (finite c).isNegative)
      else ofRat (x.value / c) := by
    rcases isNumber_iff.1 hx with rfl | ⟨p, rfl⟩ <;> exact if_neg divides
  rw [eq]
  split
  · next vanishes =>
    rw [value_of_isZero vanishes, zero_div, ofRat_zero, level_zero]
    rfl
  · rfl

theorem level_div_of_top {x : Double} (h : x.level = ⊤) {c : ℚ} (positive : 0 < c) :
    (x / finite c).level = ⊤ := by
  change (div x (finite c)).level = ⊤
  rcases level_eq_top_iff.1 h with rfl | rfl
  · rfl
  · simp [div, isNegative, level, positive.le]

/-- A quotient by a positive number grows with what is divided. -/
theorem AtMost.div_positive {x y : Double} (h : x.AtMost y) {c : ℚ} (positive : 0 < c) :
    (x / finite c).AtMost (y / finite c) := by
  rcases h.cases with top | rfl | ⟨hx, hy, le⟩
  · exact atMost_of_top (level_div_of_top top positive)
  · refine atMost_of_bottom ?_
    change Double.div (infinity true) (finite c) = infinity true
    simp [Double.div, isNegative, positive.le]
  · rw [AtMost, level_div_of_number hx positive.ne', level_div_of_number hy positive.ne']
    exact level_ofRat_mono (div_le_div_of_nonneg_right le positive.le)

/-- A quotient grows with what is divided if neither is negative. -/
theorem AtMost.div {x y d : Double} (h : x.AtMost y) (nonneg : x.IsNonneg) (divisor : d.IsNonneg)
    (nonzero : d.isZero = false) : (x / d).AtMost (y / d) := by
  rcases d with _ | ⟨_ | _⟩ | _ | c
  · refine atMost_of_top ?_
    change (Double.div y nan).level = ⊤
    cases y <;> rfl
  · by_cases top : y.level = ⊤
    · refine atMost_of_top ?_
      rcases level_eq_top_iff.1 top with rfl | rfl <;> rfl
    · obtain ⟨hx, -⟩ := nonneg.cases.resolve_left (h.not_top top)
      obtain ⟨hy, -⟩ := IsNonneg.cases (nonneg.trans h) |>.resolve_left top
      have vanishes {z : Double} (number : z.IsNumber) :
          (z / infinity false).level = ((0 : ℚ) : WithTop ℚ) := by
        rcases isNumber_iff.1 number with rfl | ⟨q, rfl⟩
        · exact level_zero (true != false)
        · exact level_zero ((finite q).isNegative != false)
      rw [AtMost, vanishes hx, vanishes hy]
  · exact absurd divisor (by simp [IsNonneg, AtMost, level])
  · cases nonzero
  · have nonneg_c := (isNumber_finite 0).atMost_iff (isNumber_finite c) |>.1 divisor
    have nonzero_c : c ≠ 0 := by simpa [isZero] using nonzero
    exact h.div_positive (lt_of_le_of_ne nonneg_c nonzero_c.symm)

/-! ## Functions of one number -/

theorem roundWith_of_number {round : ℚ → Int} (fixed : round 0 = 0) {x : Double}
    (h : x.IsNumber) :
    (roundWith round x).IsNumber ∧ (roundWith round x).value = round x.value := by
  rcases isNumber_iff.1 h with rfl | ⟨q, rfl⟩
  · refine ⟨rfl, ?_⟩
    change (0 : ℚ) = round 0
    rw [fixed, Int.cast_zero]
  · rw [roundWith]
    split
    · next none =>
      rw [IsNumber, level_zero, value_of_isZero (isZero_zero _), value, none]
      exact ⟨rfl, rfl⟩
    · exact ⟨rfl, rfl⟩

/-- Rounding to integers keeps the order, if it does so for numbers. -/
theorem AtMost.roundWith {round : ℚ → Int} (fixed : round 0 = 0) (mono : Monotone round)
    {x y : Double} (h : x.AtMost y) : (roundWith round x).AtMost (roundWith round y) := by
  rcases h.cases with top | rfl | ⟨hx, hy, le⟩
  · refine atMost_of_top ?_
    rcases level_eq_top_iff.1 top with rfl | rfl <;> rfl
  · exact atMost_of_bottom rfl
  · obtain ⟨number, value⟩ := roundWith_of_number fixed hx
    obtain ⟨number', value'⟩ := roundWith_of_number fixed hy
    rw [number.atMost_iff number', value, value']
    exact Int.cast_le.2 (mono le)

theorem floor_mono : Monotone Rat.floor :=
  fun p _ h => Rat.le_floor_iff.2 ((Rat.floor_le p).trans h)

theorem ceil_mono : Monotone Rat.ceil := fun p q h => by
  rw [Rat.ceil_eq_neg_floor_neg, Rat.ceil_eq_neg_floor_neg]
  exact neg_le_neg (floor_mono (neg_le_neg h))

theorem nearestAway_mono : Monotone nearestAway := fun p q h => by
  unfold nearestAway
  split
  · split
    · exact neg_le_neg (floor_mono (by linarith))
    · next below above =>
      have left : (0 : Int) ≤ (-p + 1 / 2).floor := Rat.le_floor_iff.2 (by push_cast; linarith)
      have right : (0 : Int) ≤ (q + 1 / 2).floor := Rat.le_floor_iff.2 (by push_cast; linarith)
      omega
  · rw [if_neg (by linarith)]
    exact floor_mono (by linarith)

theorem AtMost.apply {x y : Double} (h : x.AtMost y) (function : MathFunction)
    (other : function ≠ .abs) : (function.apply x).AtMost (function.apply y) := by
  cases function with
  | floor => exact h.roundWith (by decide) floor_mono
  | ceil => exact h.roundWith (by decide) ceil_mono
  | round => exact h.roundWith (by decide +kernel) nearestAway_mono
  | abs => exact absurd rfl other

theorem level_abs {x : Double} (h : x.IsNonneg) : x.abs.level = x.level := by
  rcases h.cases with top | ⟨number, nonneg⟩
  · rcases level_eq_top_iff.1 top with rfl | rfl <;> rfl
  · rcases isNumber_iff.1 number with rfl | ⟨q, rfl⟩
    · rfl
    · have nonneg : 0 ≤ q := nonneg
      rw [abs, if_neg (not_lt.2 nonneg)]

theorem isNonneg_abs (x : Double) : x.abs.IsNonneg := by
  rcases x with _ | _ | _ | q
  · exact atMost_of_top rfl
  · exact atMost_of_top rfl
  · exact .refl _
  · refine isNonneg_of_number (isNumber_finite _) ?_
    change 0 ≤ if q < 0 then -q else q
    split <;> linarith

theorem clampInteger_mono : Monotone clampInteger := fun m n h => by
  unfold clampInteger
  omega

theorem toInteger_floor_of_number {x : Double} (h : x.IsNumber) :
    x.floor.toInteger = clampInteger x.value.floor := by
  rcases isNumber_iff.1 h with rfl | ⟨q, rfl⟩
  · decide
  · rw [floor, Double.roundWith]
    split
    · next none =>
      rw [value, none]
      cases decide (q < 0) <;> decide
    · rw [toInteger, Rat.ceil_intCast, Rat.floor_intCast, ite_self]
      rfl

/-- The integers below two numbers are in their order, unless the greater one is not a number, which
counts as zero. -/
theorem AtMost.toInteger_floor {x y : Double} (h : x.AtMost y) (number : y ≠ nan) :
    x.floor.toInteger ≤ y.floor.toInteger := by
  rcases h.cases with top | rfl | ⟨hx, hy, le⟩
  · obtain rfl := (level_eq_top_iff.1 top).resolve_left number
    have greatest : (infinity false).floor.toInteger = maxConstant := rfl
    rw [greatest]
    rcases x.level_cases with top' | rfl | hx
    · rcases level_eq_top_iff.1 top' with rfl | rfl <;> decide
    · decide
    · rw [toInteger_floor_of_number hx]
      unfold clampInteger
      omega
  · have least : (infinity true).floor.toInteger = -maxConstant - 1 := rfl
    rw [least]
    rcases y.level_cases with top' | rfl | hy
    · obtain rfl := (level_eq_top_iff.1 top').resolve_left number
      decide
    · decide
    · rw [toInteger_floor_of_number hy]
      unfold clampInteger
      omega
  · rw [toInteger_floor_of_number hx, toInteger_floor_of_number hy]
    exact clampInteger_mono (floor_mono le)

/-! ## Integers -/

theorem ofInt_mono {m n : Int} (h : m ≤ n) : (ofInt m).AtMost (ofInt n) :=
  level_ofRat_mono (Int.cast_le.2 h)

theorem isNonneg_ofInt {n : Int} (h : 0 ≤ n) : (ofInt n).IsNonneg := by
  have zero : ofInt 0 = finite 0 := ofRat_zero
  rw [IsNonneg, ← zero]
  exact ofInt_mono h

/-- A positive integer of 64 bits is a positive number, and not rounded up to infinity. -/
theorem ofInt_of_positive {n : Int} (positive : 0 < n) (small : n ≤ maxConstant) :
    ∃ q, 0 < q ∧ ofInt n = finite q := by
  have one : ofInt 1 = finite 1 := by
    have fits : Fits ((1 : Int) : ℚ) := fits_intCast (by norm_num)
    rw [ofInt, ofRat_of_fits fits, Int.cast_one]
  have great : ofInt (2 ^ 63) = finite (2 ^ 63) := by
    have fits : Fits (((2 ^ 63 : Int)) : ℚ) := by
      refine ⟨1, 63, by decide, by decide, by norm_num, ?_⟩
      rw [bound_eq, Int.cast_pow, Int.cast_ofNat, abs_of_pos (pow_pos two_pos 63)]
      exact pow_lt_pow_right₀ one_lt_two (by decide)
    rw [ofInt, ofRat_of_fits fits]
    norm_num
  have lower : (finite 1).AtMost (ofInt n) := one ▸ ofInt_mono positive
  have upper : (ofInt n).AtMost (finite (2 ^ 63)) := by
    rw [← great]
    refine ofInt_mono (small.trans ?_)
    decide
  rcases lower.cases with top | bottom | ⟨-, number, le⟩
  · exact absurd top (upper.not_top (isNumber_finite _).not_top)
  · cases bottom
  · rcases isNumber_iff.1 number with eq | ⟨q, eq⟩
    · rw [eq] at le
      exact absurd le (by norm_num [value])
    · rw [eq] at le
      exact ⟨q, lt_of_lt_of_le one_pos le, eq⟩

end Tabletop.Double
