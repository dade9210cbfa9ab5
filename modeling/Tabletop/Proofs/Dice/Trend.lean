import Tabletop.Proofs.Dice.Highest
import Tabletop.Proofs.Formula.Rereading
import Tabletop.Proofs.Formula.Variables
import Tabletop.Proofs.Number.Order
/-!
# Formulas that grow with their dice

The value of a formula is not above the one with the highest dice if its dice are added, and are
multiplied and divided by nothing that may be negative. Which formulas are so is found out without
rolling, by a pass over the terms like the one that evaluates them, but with what is known of the
values instead of the values.
-/

namespace Tabletop

/-! ## What is known of a value -/

/-- What is known of a value whatever the dice show. -/
structure Trend where
  /-- The dice do not matter. -/
  fixed : Bool
  /-- The value is not above the one with the highest dice. -/
  rises : Bool
  nonneg : Bool
  /-- The value is a constant of the formula that is positive. -/
  positive : Bool
deriving DecidableEq

namespace Trend

def constant (n : Int) : Trend := ⟨true, true, 0 ≤ n, 0 < n && n ≤ maxConstant⟩

/-- The sum of dice. -/
def dice : Trend := ⟨false, true, true, false⟩

def add (a b : Trend) : Trend :=
  ⟨a.fixed && b.fixed, a.rises && b.rises, a.nonneg && b.nonneg, false⟩

/-- What is subtracted must not rise. -/
def subtract (a b : Trend) : Trend := ⟨a.fixed && b.fixed, a.rises && b.fixed, false, false⟩

def multiply (a b : Trend) : Trend where
  fixed := a.fixed && b.fixed
  rises := a.fixed && b.fixed || a.rises && b.rises && (a.nonneg && b.nonneg) ||
    a.rises && b.positive || a.positive && b.rises
  nonneg := a.nonneg && b.nonneg
  positive := false

def divide (a b : Trend) : Trend where
  fixed := a.fixed && b.fixed
  rises := a.fixed && b.fixed || a.rises && b.fixed && (a.nonneg && b.nonneg) ||
    a.rises && b.positive
  nonneg := a.nonneg && b.nonneg
  positive := false

def apply (function : MathFunction) (a : Trend) : Trend :=
  match function with
  | .abs => ⟨a.fixed, a.fixed || a.rises && a.nonneg, true, false⟩
  | _ => ⟨a.fixed, a.rises, a.nonneg, false⟩

/-- What is known holds of a value `x` and of the value `y` with the highest dice. -/
structure Holds (a : Trend) (x y : Double) : Prop where
  fixed : a.fixed = true → x = y
  rises : a.rises = true → x.AtMost y
  nonneg : a.nonneg = true → x.IsNonneg ∧ y.IsNonneg
  positive : a.positive = true → ∃ q, 0 < q ∧ x = .finite q ∧ y = .finite q

end Trend

/-- What is known in the middle of a formula. -/
structure PartialTrend where
  sum : Trend
  product : Trend
  subtracted : Bool
  pending : Option Operator

namespace PartialTrend

def start : PartialTrend := ⟨.constant 0, .constant 0, false, none⟩

def total (p : PartialTrend) : Trend :=
  if p.subtracted then p.sum.subtract p.product else p.sum.add p.product

def push (p : PartialTrend) (a : Trend) : PartialTrend :=
  match p.pending with
  | none => { p with product := a }
  | some .multiply => { p with product := p.product.multiply a, pending := none }
  | some .divide => { p with product := p.product.divide a, pending := none }
  | some .add => ⟨p.total, a, false, none⟩
  | some .subtract => ⟨p.total, a, true, none⟩

structure Holds (a : PartialTrend) (p q : Partial) : Prop where
  sum : a.sum.Holds p.sum q.sum
  product : a.product.Holds p.product q.product
  subtracted : p.subtracted = a.subtracted ∧ q.subtracted = a.subtracted
  pending : p.pending = a.pending ∧ q.pending = a.pending

end PartialTrend

mutual

def Term.trend : Term → Trend
  | .number n => .constant n
  | .dice _ => .dice
  | .group inner => Formula.trendFrom .start inner
  | .call function argument => (Formula.trendFrom .start argument).apply function
  | .variable _ => .constant 0
  | .operator _ => .constant 0

/-- What is known of the terms behind those that `p` stands for. -/
def Formula.trendFrom (p : PartialTrend) : List Term → Trend
  | [] => p.total
  | .operator op :: ts => Formula.trendFrom { p with pending := some op } ts
  | t :: ts => Formula.trendFrom (p.push t.trend) ts

end

/-! ## Operations keep what is known -/

namespace Double

theorem isNonneg_add {x y : Double} (h : x.IsNonneg) (h' : y.IsNonneg) : (x + y).IsNonneg := by
  have zero : finite 0 + finite 0 = finite 0 := by decide +kernel
  have sum := AtMost.add h h'
  rwa [zero] at sum

theorem isNonneg_mul {x y : Double} (h : x.IsNonneg) (h' : y.IsNonneg) : (x * y).IsNonneg := by
  have zero : finite 0 * finite 0 = finite 0 := by decide +kernel
  have product := AtMost.mul h h' (.refl _) (.refl _)
  rwa [zero] at product

theorem isNonneg_div {x y : Double} (h : x.IsNonneg) (h' : y.IsNonneg)
    (nonzero : y.isZero = false) : (x / y).IsNonneg := by
  refine AtMost.trans ?_ (AtMost.div h (.refl _) h' nonzero)
  rcases h'.cases with top | ⟨number, -⟩
  · rcases level_eq_top_iff.1 top with rfl | rfl
    · exact atMost_of_top rfl
    · exact .refl _
  · rcases isNumber_iff.1 number with rfl | ⟨q, rfl⟩
    · cases nonzero
    · have nonzero : q ≠ 0 := by simpa [isZero] using nonzero
      rw [AtMost, level_div_of_number (isNumber_finite 0) nonzero, value, zero_div, ofRat_zero]

end Double

namespace Trend

variable {a b : Trend} {x y u v : Double}

theorem constant_holds (n : Int) : (constant n).Holds (.ofInt n) (.ofInt n) where
  fixed _ := rfl
  rises _ := .refl _
  nonneg h := by
    have nonneg := Double.isNonneg_ofInt (of_decide_eq_true h)
    exact ⟨nonneg, nonneg⟩
  positive h := by
    obtain ⟨positive, small⟩ := Bool.and_eq_true_iff.1 h
    obtain ⟨q, above, eq⟩ :=
      Double.ofInt_of_positive (of_decide_eq_true positive) (of_decide_eq_true small)
    exact ⟨q, above, eq, eq⟩

theorem zero_holds : (constant 0).Holds (.finite 0) (.finite 0) := constant_holds 0

theorem dice_holds {m n : Nat} (h : m ≤ n) : dice.Holds (.ofInt m) (.ofInt n) where
  fixed := nofun
  rises _ := Double.ofInt_mono (Int.ofNat_le.2 h)
  nonneg _ := ⟨Double.isNonneg_ofInt (Int.natCast_nonneg m),
    Double.isNonneg_ofInt (Int.natCast_nonneg n)⟩
  positive := nofun

theorem Holds.add (h : a.Holds x y) (h' : b.Holds u v) : (a.add b).Holds (x + u) (y + v) where
  fixed both := by
    obtain ⟨first, second⟩ := Bool.and_eq_true_iff.1 both
    rw [h.fixed first, h'.fixed second]
  rises both := by
    obtain ⟨first, second⟩ := Bool.and_eq_true_iff.1 both
    exact (h.rises first).add (h'.rises second)
  nonneg both := by
    obtain ⟨first, second⟩ := Bool.and_eq_true_iff.1 both
    obtain ⟨hx, hy⟩ := h.nonneg first
    obtain ⟨hu, hv⟩ := h'.nonneg second
    exact ⟨Double.isNonneg_add hx hu, Double.isNonneg_add hy hv⟩
  positive := nofun

/-- A product that is added is multiplied by one first. -/
theorem Holds.unscaled (h : a.Holds x y) :
    ({ a with positive := false } : Trend).Holds (.finite 1 * x) (.finite 1 * y) where
  fixed same := by rw [h.fixed same]
  rises le := by
    rw [Double.mul_swap, Double.mul_swap _ y]
    exact (h.rises le).mul_positive one_pos
  nonneg both := by
    have one : (Double.finite 1).IsNonneg :=
      Double.isNonneg_of_number (Double.isNumber_finite 1) zero_le_one
    exact ⟨Double.isNonneg_mul one (h.nonneg both).1, Double.isNonneg_mul one (h.nonneg both).2⟩
  positive := nofun

theorem Holds.multiply (h : a.Holds x y) (h' : b.Holds u v) :
    (a.multiply b).Holds (x * u) (y * v) where
  fixed both := by
    obtain ⟨first, second⟩ := Bool.and_eq_true_iff.1 both
    rw [h.fixed first, h'.fixed second]
  rises some := by
    simp only [Trend.multiply, Bool.or_eq_true, Bool.and_eq_true] at some
    rcases some with ((⟨first, second⟩ | ⟨⟨first, second⟩, third, fourth⟩) | ⟨first, second⟩) |
      ⟨first, second⟩
    · rw [h.fixed first, h'.fixed second]
      exact .refl _
    · exact (h.rises first).mul (h'.rises second) (h.nonneg third).1 (h'.nonneg fourth).1
    · obtain ⟨q, positive, rfl, rfl⟩ := h'.positive second
      exact (h.rises first).mul_positive positive
    · obtain ⟨q, positive, rfl, rfl⟩ := h.positive first
      rw [Double.mul_swap, Double.mul_swap _ v]
      exact (h'.rises second).mul_positive positive
  nonneg both := by
    obtain ⟨first, second⟩ := Bool.and_eq_true_iff.1 both
    obtain ⟨hx, hy⟩ := h.nonneg first
    obtain ⟨hu, hv⟩ := h'.nonneg second
    exact ⟨Double.isNonneg_mul hx hu, Double.isNonneg_mul hy hv⟩
  positive := nofun

theorem Holds.divide (h : a.Holds x y) (h' : b.Holds u v) (nonzero : u.isZero = false)
    (nonzero' : v.isZero = false) : (a.divide b).Holds (x / u) (y / v) where
  fixed both := by
    obtain ⟨first, second⟩ := Bool.and_eq_true_iff.1 both
    rw [h.fixed first, h'.fixed second]
  rises some := by
    simp only [Trend.divide, Bool.or_eq_true, Bool.and_eq_true] at some
    rcases some with (⟨first, second⟩ | ⟨⟨first, second⟩, third, fourth⟩) | ⟨first, second⟩
    · rw [h.fixed first, h'.fixed second]
      exact .refl _
    · obtain rfl := h'.fixed second
      exact (h.rises first).div (h.nonneg third).1 (h'.nonneg fourth).1 nonzero
    · obtain ⟨q, positive, rfl, rfl⟩ := h'.positive second
      exact (h.rises first).div_positive positive
  nonneg both := by
    obtain ⟨first, second⟩ := Bool.and_eq_true_iff.1 both
    obtain ⟨hx, hy⟩ := h.nonneg first
    obtain ⟨hu, hv⟩ := h'.nonneg second
    exact ⟨Double.isNonneg_div hx hu nonzero, Double.isNonneg_div hy hv nonzero'⟩
  positive := nofun

theorem Holds.apply (h : a.Holds x y) (function : MathFunction) :
    (a.apply function).Holds (function.apply x) (function.apply y) := by
  have rounded (other : function ≠ .abs) :
      (⟨a.fixed, a.rises, a.nonneg, false⟩ : Trend).Holds (function.apply x)
        (function.apply y) := by
    have zero : function.apply (.finite 0) = .finite 0 := by cases function <;> decide +kernel
    have nonneg {z : Double} (h : z.IsNonneg) : (function.apply z).IsNonneg := by
      have above := Double.AtMost.apply h function other
      rwa [zero] at above
    refine ⟨fun same => by rw [h.fixed same], fun le => (h.rises le).apply function other,
      fun both => ?_, nofun⟩
    exact ⟨nonneg (h.nonneg both).1, nonneg (h.nonneg both).2⟩
  cases function with
  | floor => exact rounded nofun
  | ceil => exact rounded nofun
  | round => exact rounded nofun
  | abs =>
    refine ⟨fun same => by rw [h.fixed same], fun some => ?_, fun _ => ?_, nofun⟩
    · rcases Bool.or_eq_true_iff.1 some with same | both
      · rw [h.fixed same]
        exact .refl _
      · obtain ⟨rises, nonneg⟩ := Bool.and_eq_true_iff.1 both
        obtain ⟨hx, hy⟩ := h.nonneg nonneg
        change x.abs.level ≤ y.abs.level
        rw [Double.level_abs hx, Double.level_abs hy]
        exact h.rises rises
    · exact ⟨Double.isNonneg_abs x, Double.isNonneg_abs y⟩

end Trend

namespace PartialTrend

variable {a : PartialTrend} {p q : Partial} {b : Trend} {x y : Double}

theorem start_holds : start.Holds Partial.start Partial.start :=
  ⟨Trend.zero_holds, Trend.zero_holds, ⟨rfl, rfl⟩, ⟨rfl, rfl⟩⟩

theorem Holds.total (h : a.Holds p q) : a.total.Holds p.total q.total := by
  obtain ⟨sum, product, ⟨left, right⟩, -⟩ := h
  unfold PartialTrend.total Partial.total
  rw [left, right]
  cases a.subtracted with
  | false =>
    have sums := sum.add product.unscaled
    exact sums
  | true =>
    refine ⟨fun both => ?_, fun both => ?_, nofun, nofun⟩
    · obtain ⟨first, second⟩ := Bool.and_eq_true_iff.1 both
      rw [sum.fixed first, product.fixed second]
    · obtain ⟨first, second⟩ := Bool.and_eq_true_iff.1 both
      rw [product.fixed second]
      exact (sum.rises first).add (.refl _)

theorem Holds.push (h : a.Holds p q) (h' : b.Holds x y) {p' q' : Partial}
    (pushed : p.push x = .ok p') (pushed' : q.push y = .ok q') : (a.push b).Holds p' q' := by
  obtain ⟨left, right⟩ := h.pending
  unfold Partial.push at pushed pushed'
  rw [left] at pushed
  rw [right] at pushed'
  unfold PartialTrend.push
  cases next : a.pending with
  | none =>
    rw [next] at pushed pushed'
    cases pushed
    cases pushed'
    exact ⟨h.sum, h', h.subtracted, ⟨rfl, rfl⟩⟩
  | some op =>
    rw [next] at pushed pushed'
    cases op with
    | add | subtract =>
      cases pushed
      cases pushed'
      exact ⟨h.total, h', ⟨rfl, rfl⟩, ⟨rfl, rfl⟩⟩
    | multiply =>
      cases pushed
      cases pushed'
      exact ⟨h.sum, h.product.multiply h', h.subtracted, ⟨rfl, rfl⟩⟩
    | divide =>
      dsimp only at pushed pushed'
      split at pushed
      · cases pushed
      · next nonzero =>
        split at pushed'
        · cases pushed'
        · next nonzero' =>
          cases pushed
          cases pushed'
          have quotient := h.product.divide h' (Bool.eq_false_iff.2 nonzero)
            (Bool.eq_false_iff.2 nonzero')
          exact ⟨h.sum, quotient, h.subtracted, ⟨rfl, rfl⟩⟩

end PartialTrend

/-! ## Evaluations keep what is known -/

mutual

theorem Term.trend_holds {σ : Type} [Roller σ] [FairRoller σ] (u : Term) {s s' : σ}
    {t t' : Maximizer} {x y : Double} {dice top : List DieOutcome}
    (sided : ∀ d, .dice d ∈ u.nested → 1 ≤ d.faces)
    (rolled : perform u.evaluate s = (.ok (x, dice), s'))
    (highest : perform u.evaluate t = (.ok (y, top), t')) : u.trend.Holds x y := by
  match u with
  | .number n =>
    cases rolled
    cases highest
    exact Trend.constant_holds n
  | .variable path =>
    cases rolled
    cases highest
    exact Trend.zero_holds
  | .dice d =>
    obtain ⟨o, v, first, made⟩ := perform_bind_ok_iff.1 rolled
    obtain ⟨o', v', second, made'⟩ := perform_bind_ok_iff.1 highest
    cases made
    cases made'
    have faces := sided d (List.mem_singleton_self _)
    exact Trend.dice_holds (DiceTerm.total_le_highest faces first second)
  | .group inner =>
    exact Formula.trend_holds inner (fun d mem => sided d (List.mem_cons_of_mem _ mem))
      PartialTrend.start_holds rolled highest
  | .call function argument =>
    obtain ⟨⟨value, rolls⟩, v, first, made⟩ := perform_bind_ok_iff.1 rolled
    obtain ⟨⟨value', rolls'⟩, v', second, made'⟩ := perform_bind_ok_iff.1 highest
    cases made
    cases made'
    have inside := Formula.trend_holds argument (fun d mem => sided d (List.mem_cons_of_mem _ mem))
      PartialTrend.start_holds first second
    exact inside.apply function
  | .operator op => cases rolled

/-- The pass without dice is right about the passes with them, in step with both. -/
theorem Formula.trend_holds {σ : Type} [Roller σ] [FairRoller σ] (ts : List Term)
    {a : PartialTrend} {p q : Partial} {s s' : σ} {t t' : Maximizer} {x y : Double}
    {dice top : List DieOutcome} (sided : ∀ d, .dice d ∈ Formula.nested ts → 1 ≤ d.faces)
    (h : a.Holds p q)
    (rolled : perform (Formula.evaluateFrom p ts) s = (.ok (x, dice), s'))
    (highest : perform (Formula.evaluateFrom q ts) t = (.ok (y, top), t')) :
    (Formula.trendFrom a ts).Holds x y := by
  match ts with
  | [] =>
    cases rolled
    cases highest
    exact h.total
  | u :: us =>
    have others : ∀ d, .dice d ∈ Formula.nested us → 1 ≤ d.faces := fun d mem =>
      sided d (List.mem_append_right _ mem)
    rcases u.operator_or_operand with ⟨op, rfl⟩ | operand
    · have pending : ({ a with pending := some op } : PartialTrend).Holds
          { p with pending := some op } { q with pending := some op } :=
        ⟨h.sum, h.product, h.subtracted, ⟨rfl, rfl⟩⟩
      exact Formula.trend_holds us others pending rolled highest
    · rw [Formula.evaluateFrom_operand operand] at rolled highest
      obtain ⟨⟨value, rolls⟩, v, first, rolled⟩ := perform_bind_ok_iff.1 rolled
      obtain ⟨⟨value', rolls'⟩, v', first', highest⟩ := perform_bind_ok_iff.1 highest
      obtain ⟨p', w, pushed, rolled⟩ := perform_bind_ok_iff.1 rolled
      obtain ⟨q', w', pushed', highest⟩ := perform_bind_ok_iff.1 highest
      obtain ⟨⟨total, more⟩, z, rest, made⟩ := perform_bind_ok_iff.1 rolled
      obtain ⟨⟨total', more'⟩, z', rest', made'⟩ := perform_bind_ok_iff.1 highest
      cases made
      cases made'
      rw [perform_lift] at pushed pushed'
      have here := u.trend_holds (fun d mem => sided d (List.mem_append_left _ mem)) first first'
      have step := h.push here (congrArg Prod.fst pushed) (congrArg Prod.fst pushed')
      have behind := Formula.trend_holds us others step rest rest'
      have pass : Formula.trendFrom a (u :: us) = Formula.trendFrom (a.push u.trend) us := by
        rw [Formula.trendFrom]
        exact operand
      rwa [pass]

end

/-! ## Totals -/

namespace Formula

/-- The value before it is rounded down, where every die shows its highest face. -/
def highest? (f : Formula) : Option Double :=
  (perform (evaluateFrom Partial.start f) Maximizer.mk).1.toOption.map (·.1)

/-- The value of the formula rises with its dice, and it does not overflow into what is not a number
when they show their highest faces. -/
def Rises (f : Formula) : Prop :=
  (trendFrom .start f).rises = true ∧ highest? f ≠ some .nan

instance (f : Formula) : Decidable f.Rises := inferInstanceAs (Decidable (_ ∧ _))

/-- The highest outcome of a text that was read, from the pass over its formula. -/
theorem total_of_maximize {text : String} {f : Formula} {top : EvaluatedRoll}
    (parsed : parse text = .ok f) (h : maximize text ∅ = .ok top) :
    ∃ y dice, perform (evaluateFrom Partial.start f) Maximizer.mk = (.ok (y, dice), Maximizer.mk) ∧
      top.total = y.floor.toInteger := by
  obtain ⟨g, replaced⟩ := exists_substitute_empty f
  rw [maximize_eq parsed, perform_evaluate_of_ok replaced,
    ← evaluateFrom_of_substitute_empty f replaced] at h
  cases evaluated : (perform (evaluateFrom Partial.start f) Maximizer.mk).1 with
  | error e =>
    rw [evaluated] at h
    cases h
  | ok outcome =>
    rw [evaluated] at h
    cases h
    exact ⟨outcome.1, outcome.2, Prod.ext evaluated rfl, rfl⟩

end Formula

/-- The total of a formula that rises is not above its highest one. -/
theorem RolledFrom.total_le {text : String} {b : Bindings} {r top : EvaluatedRoll} {f : Formula}
    (h : RolledFrom text b r) (highest : maximize r.formula ∅ = .ok top)
    (reread : Formula.parse r.formula = .ok f) (rises : f.Rises) : r.total ≤ top.total := by
  obtain ⟨parsed, substituted, evaluated⟩ := h
  obtain ⟨-, inside⟩ := Formula.replaced_of_parse parsed substituted
  obtain rfl := Formula.eq_of_parse_substituted parsed substituted reread
  obtain ⟨y, dice, shown, total⟩ := Formula.total_of_maximize reread highest
  have sided : ∀ d, .dice d ∈ Formula.nested f → 1 ≤ d.faces := by
    intro d mem
    obtain ⟨-, sound | ⟨least, -⟩⟩ := inside _ mem
    · exact sound.2
    · cases least
  have number : y ≠ .nan := by
    rintro rfl
    refine rises.2 ?_
    rw [Formula.highest?, shown]
    rfl
  have trend := Formula.trend_holds f sided PartialTrend.start_holds evaluated shown
  rw [total]
  exact (trend.rises rises.1).toInteger_floor number

end Tabletop
