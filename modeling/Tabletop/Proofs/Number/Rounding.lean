import Mathlib
import Tabletop.Number.Double
/-!
# Rounding to doubles

A rational number is a double exactly if it is a multiple, by at most `2 ^ 53`, of a power of two
that is not below the least one, and is in range. Rounding yields such numbers and leaves them as
they are, so whatever an operation yields is rounded already.
-/

namespace Tabletop.Double

/-! ## Powers of two -/

theorem two_zpow (e : Int) : (2 : ℚ) ^ e = 2 ^ e.toNat / 2 ^ (-e).toNat := by
  obtain ⟨k, rfl | rfl⟩ := e.eq_nat_or_neg
  · simp
  · simp

theorem two_zpow_pos (e : Int) : (0 : ℚ) < 2 ^ e := zpow_pos two_pos e

theorem scaled_eq (significand : Nat) (exponent : Int) :
    scaled significand exponent = significand * 2 ^ exponent := by
  rw [scaled, Rat.mkRat_eq_div, two_zpow, Nat.pow_eq, Nat.pow_eq]
  push_cast
  rw [mul_div_assoc]

/-- Comparing with a power of two, without a division. -/
theorem mul_pow_lt_iff {a b : Nat} (hb : 0 < b) (e : Int) :
    a * 2 ^ (-e).toNat < b * 2 ^ e.toNat ↔ (a / b : ℚ) < 2 ^ e := by
  have hb' : (0 : ℚ) < b := Nat.cast_pos.2 hb
  have hp : (0 : ℚ) < 2 ^ (-e).toNat := pow_pos two_pos _
  rw [two_zpow, div_lt_div_iff₀ hb' hp, mul_comm ((2 : ℚ) ^ e.toNat)]
  exact_mod_cast Iff.rfl

theorem binaryExponent_spec {a b : Nat} (ha : 0 < a) (hb : 0 < b) :
    (2 : ℚ) ^ binaryExponent a b ≤ a / b ∧ (a / b : ℚ) < 2 ^ (binaryExponent a b + 1) := by
  have hb' : (0 : ℚ) < b := Nat.cast_pos.2 hb
  have lower_a : (2 : ℚ) ^ a.log2 ≤ a := by exact_mod_cast Nat.log2_self_le ha.ne'
  have upper_a : (a : ℚ) < 2 ^ (a.log2 + 1) := by exact_mod_cast Nat.lt_log2_self
  have lower_b : (2 : ℚ) ^ b.log2 ≤ b := by exact_mod_cast Nat.log2_self_le hb.ne'
  have upper_b : (b : ℚ) < 2 ^ (b.log2 + 1) := by exact_mod_cast Nat.lt_log2_self
  -- the quotient lies within a factor of two of the guess
  have below : (2 : ℚ) ^ ((a.log2 : Int) - b.log2 - 1) < a / b := by
    rw [lt_div_iff₀ hb']
    calc (2 : ℚ) ^ ((a.log2 : Int) - b.log2 - 1) * b
        < 2 ^ ((a.log2 : Int) - b.log2 - 1) * 2 ^ (b.log2 + 1) :=
          mul_lt_mul_of_pos_left upper_b (two_zpow_pos _)
      _ = 2 ^ a.log2 := by
          rw [← zpow_natCast, ← zpow_natCast, ← zpow_add₀ two_ne_zero]
          congr 1
          push_cast
          ring
      _ ≤ a := lower_a
  have above : (a / b : ℚ) < 2 ^ ((a.log2 : Int) - b.log2 + 1) := by
    rw [div_lt_iff₀ hb']
    calc (a : ℚ) < 2 ^ (a.log2 + 1) := upper_a
      _ = 2 ^ ((a.log2 : Int) - b.log2 + 1) * 2 ^ b.log2 := by
          rw [← zpow_natCast, ← zpow_natCast, ← zpow_add₀ two_ne_zero]
          congr 1
          push_cast
          ring
      _ ≤ 2 ^ ((a.log2 : Int) - b.log2 + 1) * b :=
          mul_le_mul_of_nonneg_left lower_b (two_zpow_pos _).le
  unfold binaryExponent
  simp only [Nat.pow_eq]
  split
  · next h =>
    rw [mul_pow_lt_iff hb] at h
    exact ⟨below.le, by simpa using h⟩
  · next h =>
    rw [mul_pow_lt_iff hb, not_lt] at h
    exact ⟨h, above⟩

/-- A fraction in units of a power of two, as a fraction of natural numbers. -/
theorem units_eq (a b : Nat) (e : Int) :
    ((a * 2 ^ (-e).toNat : Nat) : ℚ) / (b * 2 ^ e.toNat : Nat) = a / b / 2 ^ e := by
  rw [two_zpow]
  push_cast
  field_simp

theorem nearestEven_le {a b bound : Nat} (hb : 0 < b) (h : (a / b : ℚ) ≤ bound) :
    nearestEven a b ≤ bound := by
  have hb' : (0 : ℚ) < b := Nat.cast_pos.2 hb
  have le : a ≤ bound * b := by
    rw [div_le_iff₀ hb'] at h
    exact_mod_cast h
  have quotient : a / b ≤ bound := Nat.div_le_of_le_mul (Nat.mul_comm bound b ▸ le)
  have division := Nat.div_add_mod a b
  unfold nearestEven
  by_cases exact_bound : a / b = bound
  · have remainder : a % b = 0 := by
      rw [exact_bound, Nat.mul_comm] at division
      omega
    rw [remainder]
    simpa [hb] using quotient
  · simp only
    split
    · exact quotient
    · split
      · omega
      · omega

theorem nearestEven_eq {a b n : Nat} (hb : 0 < b) (h : (a / b : ℚ) = n) : nearestEven a b = n := by
  have hb' : (b : ℚ) ≠ 0 := Nat.cast_ne_zero.2 hb.ne'
  have eq : a = n * b := by
    rw [div_eq_iff hb'] at h
    exact_mod_cast h
  subst eq
  simp [nearestEven, hb]

/-! ## The numbers that are doubles -/

/-- Numbers that a double can stand for. -/
def Fits (q : ℚ) : Prop :=
  ∃ (m : Nat) (e : Int), m ≤ 2 ^ 53 ∧ -1074 ≤ e ∧ |q| = m * 2 ^ e ∧ |q| < bound

/-- The exponent of the spacing of doubles around a number. -/
def unitExponent (q : ℚ) : Int := spacing (binaryExponent q.num.natAbs q.den)

/-- A number in units of the spacing around it, rounded. -/
def significand (q : ℚ) : Nat :=
  nearestEven (q.num.natAbs * 2 ^ (-unitExponent q).toNat) (q.den * 2 ^ (unitExponent q).toNat)

theorem abs_eq_div (q : ℚ) : |q| = (q.num.natAbs : ℚ) / q.den := by
  conv_lhs => rw [← Rat.num_div_den q]
  rw [abs_div, Nat.abs_cast, Nat.cast_natAbs, Int.cast_abs]

theorem ofRat_eq {q : ℚ} (h : q ≠ 0) :
    ofRat q =
      if significand q = 0 then zero (q < 0)
      else if bound ≤ significand q * 2 ^ unitExponent q then infinity (q < 0)
      else finite (if q < 0 then -(significand q * 2 ^ unitExponent q)
        else significand q * 2 ^ unitExponent q) := by
  have negative : q.num < 0 ↔ q < 0 := Rat.num_neg
  unfold ofRat
  simp only [if_neg h, scaled_eq, negative]
  rfl

theorem significand_units {q : ℚ} :
    ((q.num.natAbs * 2 ^ (-unitExponent q).toNat : Nat) : ℚ) /
      (q.den * 2 ^ (unitExponent q).toNat : Nat) = |q| / 2 ^ unitExponent q := by
  rw [units_eq, abs_eq_div]

theorem denominator_pos (q : ℚ) : 0 < q.den * 2 ^ (unitExponent q).toNat :=
  Nat.mul_pos q.den_pos (Nat.two_pow_pos _)

theorem binaryExponent_abs {q : ℚ} (h : q ≠ 0) :
    (2 : ℚ) ^ binaryExponent q.num.natAbs q.den ≤ |q| ∧
      |q| < 2 ^ (binaryExponent q.num.natAbs q.den + 1) := by
  rw [abs_eq_div]
  exact binaryExponent_spec (Int.natAbs_pos.2 (Rat.num_ne_zero.2 h)) q.den_pos

theorem significand_le {q : ℚ} (h : q ≠ 0) : significand q ≤ 2 ^ 53 := by
  refine nearestEven_le (denominator_pos q) ?_
  rw [significand_units, div_le_iff₀ (two_zpow_pos _)]
  obtain ⟨-, below⟩ := binaryExponent_abs h
  refine below.le.trans ?_
  have exponent : binaryExponent q.num.natAbs q.den + 1 ≤ 53 + unitExponent q := by
    unfold unitExponent spacing
    omega
  rw [Nat.cast_pow, Nat.cast_two, ← zpow_natCast, ← zpow_add₀ two_ne_zero]
  exact zpow_le_zpow_right₀ one_le_two exponent

theorem bound_eq : bound = 2 ^ 1024 := by
  simp only [bound, Nat.pow_eq, Nat.cast_pow, Nat.cast_ofNat]

theorem bound_pos : 0 < bound := bound_eq ▸ pow_pos two_pos 1024

theorem fits_zero : Fits 0 := by
  refine ⟨0, 0, Nat.zero_le _, by decide, by simp, ?_⟩
  rw [abs_zero]
  exact bound_pos

/-- Rounding yields numbers that are doubles. -/
theorem fits_of_ofRat {r q : ℚ} (h : ofRat r = finite q) : Fits q := by
  by_cases zero_r : r = 0
  · rw [ofRat, if_pos zero_r] at h
    cases h
    exact fits_zero
  · rw [ofRat_eq zero_r] at h
    have least : -1074 ≤ unitExponent r := le_max_right _ _
    have nonneg : (0 : ℚ) ≤ significand r * 2 ^ unitExponent r :=
      mul_nonneg (Nat.cast_nonneg _) (two_zpow_pos _).le
    split at h
    · unfold zero at h
      split at h
      · cases h
      · cases h
        exact fits_zero
    · split at h
      · cases h
      · next inRange =>
        have magnitude : |q| = significand r * 2 ^ unitExponent r := by
          cases h
          split
          · rw [abs_neg, abs_of_nonneg nonneg]
          · rw [abs_of_nonneg nonneg]
        exact ⟨_, _, significand_le zero_r, least, magnitude, magnitude ▸ not_le.1 inRange⟩

/-- A number that is a double is a multiple of the spacing around it. -/
theorem exists_units {q : ℚ} (h : Fits q) (nonzero : q ≠ 0) :
    ∃ n : Nat, |q| = n * 2 ^ unitExponent q := by
  obtain ⟨m, e, small, least, eq, -⟩ := h
  obtain ⟨above, -⟩ := binaryExponent_abs nonzero
  have top : (m : ℚ) * 2 ^ e ≤ 2 ^ (53 + e) := by
    rw [zpow_add₀ two_ne_zero]
    refine mul_le_mul_of_nonneg_right ?_ (two_zpow_pos e).le
    exact_mod_cast small
  have exponent : binaryExponent q.num.natAbs q.den ≤ 53 + e :=
    (zpow_le_zpow_iff_right₀ one_lt_two).1 (above.trans (eq.trans_le top))
  by_cases fine : unitExponent q ≤ e
  · refine ⟨m * 2 ^ (e - unitExponent q).toNat, ?_⟩
    rw [eq]
    push_cast
    rw [mul_assoc, ← zpow_natCast, ← zpow_add₀ two_ne_zero, Int.toNat_of_nonneg (by omega)]
    congr 2
    ring
  · -- the multiple is `2 ^ 53`, the one that is a power of two in the next range
    have next : unitExponent q = e + 1 ∧ binaryExponent q.num.natAbs q.den = 53 + e := by
      unfold unitExponent spacing at *
      omega
    refine ⟨2 ^ 52, ?_⟩
    rw [next.2] at above
    rw [le_antisymm (eq.trans_le top) above, next.1]
    rw [Nat.cast_pow, Nat.cast_two, ← zpow_natCast, ← zpow_add₀ two_ne_zero]
    congr 1
    push_cast
    ring

/-- Rounding leaves numbers alone that are doubles. -/
theorem ofRat_of_fits {q : ℚ} (h : Fits q) : ofRat q = finite q := by
  by_cases zero_q : q = 0
  · rw [ofRat, if_pos zero_q, zero_q]
  · obtain ⟨n, units⟩ := exists_units h zero_q
    have same : significand q = n := by
      refine nearestEven_eq (denominator_pos q) ?_
      rw [significand_units, units, mul_div_assoc, div_self (two_zpow_pos _).ne', mul_one]
    have positive : n ≠ 0 := by
      rintro rfl
      exact zero_q (abs_eq_zero.1 (by simpa using units))
    obtain ⟨-, -, -, -, -, inRange⟩ := h
    rw [ofRat_eq zero_q, same, if_neg positive, ← units, if_neg (not_le.2 inRange)]
    by_cases negative : q < 0
    · rw [if_pos negative, abs_of_neg negative, neg_neg]
    · rw [if_neg negative, abs_of_nonneg (not_lt.1 negative)]

/-! ## Integers -/

theorem fits_intCast {n : Int} (h : |n| ≤ 2 ^ 53) : Fits n := by
  have magnitude : |(n : ℚ)| = (n.natAbs : ℚ) := by rw [Nat.cast_natAbs, Int.cast_abs]
  have small : n.natAbs ≤ 2 ^ 53 := by
    rw [← Int.natCast_natAbs] at h
    exact_mod_cast h
  refine ⟨n.natAbs, 0, small, by decide, by rw [magnitude, zpow_zero, mul_one], ?_⟩
  rw [magnitude, bound_eq]
  calc (n.natAbs : ℚ) ≤ 2 ^ 53 := by exact_mod_cast small
    _ < 2 ^ 1024 := pow_lt_pow_right₀ one_lt_two (by decide)

/-- A double with a fraction is below `2 ^ 52`; so a double is an integer, or small. -/
theorem exists_int_or_lt {q : ℚ} (h : Fits q) : (∃ n : Int, q = n) ∨ |q| ≤ 2 ^ 52 := by
  obtain ⟨m, e, small, -, eq, -⟩ := h
  by_cases whole : 0 ≤ e
  · left
    obtain ⟨k, rfl⟩ := Int.eq_ofNat_of_zero_le whole
    have magnitude : |q| = ((m * 2 ^ k : Nat) : ℚ) := by
      rw [eq, zpow_natCast]
      push_cast
      rfl
    rcases abs_choice q with same | opposite
    · exact ⟨(m * 2 ^ k : Nat), by rw [← same, magnitude, Int.cast_natCast]⟩
    · refine ⟨-(m * 2 ^ k : Nat), ?_⟩
      rw [Int.cast_neg, Int.cast_natCast, ← magnitude, opposite, neg_neg]
  · right
    have half : (2 : ℚ) ^ e ≤ 2 ^ (-1 : Int) := zpow_le_zpow_right₀ one_le_two (by omega)
    have small' : (m : ℚ) ≤ 2 ^ 53 := by exact_mod_cast small
    rw [eq]
    calc (m : ℚ) * 2 ^ e ≤ 2 ^ 53 * 2 ^ (-1 : Int) :=
          mul_le_mul small' half (two_zpow_pos e).le (by positivity)
      _ = 2 ^ 52 := by norm_num

/-- Rounding to an integer stays within the doubles, if integers stay and no bound is passed. -/
theorem fits_of_round {round : ℚ → Int} (fixed : ∀ n : Int, round n = n)
    (bounded : ∀ (q : ℚ) (n : Nat), |q| ≤ n → |round q| ≤ n) {q : ℚ} (h : Fits q) :
    Fits (round q) := by
  rcases exists_int_or_lt h with ⟨n, rfl⟩ | small
  · rwa [fixed]
  · have within := bounded q (2 ^ 52) (by exact_mod_cast small)
    exact fits_intCast (within.trans (by norm_num))

theorem abs_floor_le {q : ℚ} {n : Nat} (h : |q| ≤ n) : |q.floor| ≤ n := by
  obtain ⟨lower, upper⟩ := abs_le.1 h
  refine abs_le.2 ⟨Rat.le_floor_iff.2 (by exact_mod_cast lower), ?_⟩
  exact_mod_cast (Rat.floor_le q).trans upper

theorem abs_ceil_le {q : ℚ} {n : Nat} (h : |q| ≤ n) : |q.ceil| ≤ n := by
  rw [Rat.ceil_eq_neg_floor_neg, abs_neg]
  exact abs_floor_le (by rwa [abs_neg])

theorem nearestAway_neg {q : ℚ} (h : q < 0) : nearestAway q = -nearestAway (-q) := by
  have positive : ¬ -q < 0 := by linarith
  rw [nearestAway, nearestAway, if_pos h, if_neg positive]

theorem abs_nearestAway_le {q : ℚ} {n : Nat} (h : |q| ≤ n) : |nearestAway q| ≤ n := by
  have positive {r : ℚ} (nonneg : 0 ≤ r) (le : r ≤ n) : |nearestAway r| ≤ n := by
    rw [nearestAway, if_neg (not_lt.2 nonneg)]
    refine abs_le.2 ⟨?_, ?_⟩
    · have : (0 : Int) ≤ (r + 1 / 2).floor := Rat.le_floor_iff.2 (by push_cast; linarith)
      omega
    · have : (r + 1 / 2).floor < (n : Int) + 1 := Rat.floor_lt_iff.2 (by push_cast; linarith)
      omega
  obtain ⟨lower, upper⟩ := abs_le.1 h
  by_cases negative : q < 0
  · rw [nearestAway_neg negative, abs_neg]
    exact positive (by linarith) (by linarith)
  · exact positive (not_lt.1 negative) upper

theorem nearestAway_intCast (n : Int) : nearestAway n = n := by
  have half (k : Int) : ((k : ℚ) + 1 / 2).floor = k := by
    have lower : k ≤ ((k : ℚ) + 1 / 2).floor := Rat.le_floor_iff.2 (by linarith)
    have upper : ((k : ℚ) + 1 / 2).floor < k + 1 := Rat.floor_lt_iff.2 (by push_cast; linarith)
    omega
  unfold nearestAway
  split
  · rw [← Int.cast_neg, half, neg_neg]
  · exact half n

/-! ## Results of operations -/

/-- What is finite is a double. -/
def Rounded : Double → Prop
  | finite q => Fits q
  | _ => True

theorem rounded_nan : Rounded nan := trivial

theorem rounded_infinity (negative : Bool) : Rounded (infinity negative) := trivial

theorem rounded_negativeZero : Rounded negativeZero := trivial

theorem rounded_zero (negative : Bool) : Rounded (zero negative) := by
  cases negative with
  | false => exact fits_zero
  | true => trivial

theorem rounded_ofRat (q : ℚ) : Rounded (ofRat q) := by
  cases h : ofRat q with
  | finite r => exact fits_of_ofRat h
  | _ => trivial

theorem rounded_add (x y : Double) : Rounded (x + y) := by
  change Rounded (add x y)
  unfold add
  split
  · exact rounded_nan
  · exact rounded_nan
  · split
    · exact rounded_infinity _
    · exact rounded_nan
  · exact rounded_infinity _
  · exact rounded_infinity _
  · exact rounded_negativeZero
  · exact rounded_ofRat _

theorem rounded_roundWith {round : ℚ → Int} (fixed : ∀ n : Int, round n = n)
    (bounded : ∀ (q : ℚ) (n : Nat), |q| ≤ n → |round q| ≤ n) {x : Double} (h : Rounded x) :
    Rounded (roundWith round x) := by
  cases x with
  | finite q =>
    rw [roundWith]
    split
    · exact rounded_zero _
    · exact fits_of_round fixed bounded h
  | _ => trivial

theorem rounded_floor {x : Double} (h : Rounded x) : Rounded x.floor :=
  rounded_roundWith Rat.floor_intCast (fun _ _ => abs_floor_le) h

theorem rounded_ceil {x : Double} (h : Rounded x) : Rounded x.ceil :=
  rounded_roundWith Rat.ceil_intCast (fun _ _ => abs_ceil_le) h

theorem rounded_round {x : Double} (h : Rounded x) : Rounded x.round :=
  rounded_roundWith nearestAway_intCast (fun _ _ => abs_nearestAway_le) h

theorem rounded_abs {x : Double} (h : Rounded x) : Rounded x.abs := by
  cases x with
  | finite q =>
    have same : (if q < 0 then -q else q) = |q| := by
      split
      · next negative => rw [abs_of_neg negative]
      · next nonneg => rw [abs_of_nonneg (not_lt.1 nonneg)]
    obtain ⟨m, e, fits⟩ := h
    rw [abs, same]
    exact ⟨m, e, by rwa [abs_abs]⟩
  | negativeZero => exact fits_zero
  | nan => trivial
  | infinity _ => trivial

end Tabletop.Double
