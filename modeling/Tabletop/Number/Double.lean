import Tabletop.Number.Range
/-!
# Double precision numbers

Binary floating point numbers with 53 significant bits, as exact rationals: an operation computes
the exact result and rounds it once, to the nearest representable number with ties to an even
significand. Totals of formulas are computed in these numbers, and proficiency factors are read
and written in them.
-/

namespace Tabletop

/-- A double precision number. A finite number is held as the rational it stands for; the zero with
a minus sign is apart, and `finite 0` is the other zero. -/
inductive Double where
  | nan
  | infinity (negative : Bool)
  | negativeZero
  | finite (value : Rat)
deriving DecidableEq

namespace Double

instance : Inhabited Double := ⟨finite 0⟩

/-- `numerator / denominator` to the nearest natural number, ties to the even one. -/
def nearestEven (numerator denominator : Nat) : Nat :=
  let quotient := numerator / denominator
  let twice := 2 * (numerator % denominator)
  if twice < denominator then quotient
  else if denominator < twice then quotient + 1
  else quotient + quotient % 2

/-- The exponent `e` with `2 ^ e ≤ numerator / denominator < 2 ^ (e + 1)`, both being positive. -/
def binaryExponent (numerator denominator : Nat) : Int :=
  let guess : Int := (numerator.log2 : Int) - (denominator.log2 : Int)
  if numerator * Nat.pow 2 (-guess).toNat < denominator * Nat.pow 2 guess.toNat then guess - 1
  else guess

/-- The spacing exponent of the doubles around a number of the given binary exponent. -/
def spacing (exponent : Int) : Int := max (exponent - 52) (-1074)

/-- `significand * 2 ^ exponent`. -/
def scaled (significand : Nat) (exponent : Int) : Rat :=
  mkRat (significand * Nat.pow 2 exponent.toNat) (Nat.pow 2 (-exponent).toNat)

/-- The least power of two that is out of range. -/
def bound : Rat := (Nat.pow 2 1024 : Nat)

/-- The zero with the given sign. -/
def zero (negative : Bool) : Double := if negative then negativeZero else finite 0

/-- The double nearest to a rational number. -/
def ofRat (q : Rat) : Double :=
  if q = 0 then finite 0
  else
    let negative := q.num < 0
    let unit := spacing (binaryExponent q.num.natAbs q.den)
    let significand :=
      nearestEven (q.num.natAbs * Nat.pow 2 (-unit).toNat) (q.den * Nat.pow 2 unit.toNat)
    let magnitude := scaled significand unit
    if significand = 0 then zero negative
    else if bound ≤ magnitude then infinity negative
    else finite (if negative then -magnitude else magnitude)

/-- The double nearest to an integer. -/
def ofInt (n : Int) : Double := ofRat (n : Rat)

/-- The rational that a finite number stands for, and `0` for the others. -/
def value : Double → Rat
  | finite q => q
  | _ => 0

/-- Whether the sign is a minus. -/
def isNegative : Double → Bool
  | nan => false
  | infinity negative => negative
  | negativeZero => true
  | finite q => q < 0

/-- Both zeros equal zero. -/
def isZero : Double → Bool
  | negativeZero => true
  | finite q => q = 0
  | _ => false

def neg : Double → Double
  | nan => nan
  | infinity negative => infinity (!negative)
  | negativeZero => finite 0
  | finite q => if q = 0 then negativeZero else finite (-q)

def add : Double → Double → Double
  | nan, _ => nan
  | _, nan => nan
  | infinity a, infinity b => if a = b then infinity a else nan
  | infinity a, _ => infinity a
  | _, infinity b => infinity b
  | negativeZero, negativeZero => negativeZero
  | x, y => ofRat (x.value + y.value)

def mul (x y : Double) : Double :=
  let negative := x.isNegative != y.isNegative
  match x, y with
  | nan, _ => nan
  | _, nan => nan
  | infinity _, y => if y.isZero then nan else infinity negative
  | x, infinity _ => if x.isZero then nan else infinity negative
  | x, y => if x.isZero || y.isZero then zero negative else ofRat (x.value * y.value)

def div (x y : Double) : Double :=
  let negative := x.isNegative != y.isNegative
  match x, y with
  | nan, _ => nan
  | _, nan => nan
  | infinity _, infinity _ => nan
  | infinity _, _ => infinity negative
  | _, infinity _ => zero negative
  | x, y =>
    if y.isZero then (if x.isZero then nan else infinity negative)
    else if x.isZero then zero negative
    else ofRat (x.value / y.value)

instance : Neg Double := ⟨neg⟩
instance : Add Double := ⟨add⟩
instance : Mul Double := ⟨mul⟩
instance : Div Double := ⟨div⟩

/-- A number rounded to an integer keeps its sign, also where the integer is zero. -/
def roundWith (round : Rat → Int) : Double → Double
  | finite q => if round q = 0 then zero (q < 0) else finite (round q : Rat)
  | x => x

/-- The greatest integer that is not above. -/
def floor : Double → Double := roundWith Rat.floor

/-- The least integer that is not below. -/
def ceil : Double → Double := roundWith Rat.ceil

/-- The nearest integer, a half going away from zero. -/
def nearestAway (q : Rat) : Int :=
  if q < 0 then -(Rat.floor (-q + 1 / 2)) else Rat.floor (q + 1 / 2)

/-- The nearest integer, a half going away from zero. -/
def round : Double → Double := roundWith nearestAway

def abs : Double → Double
  | infinity _ => infinity false
  | negativeZero => finite 0
  | finite q => finite (if q < 0 then -q else q)
  | nan => nan

/-- Whether the first number is below the second one. Nothing is below or above `nan`. -/
def lt : Double → Double → Bool
  | nan, _ => false
  | _, nan => false
  | infinity true, y => y != infinity true
  | _, infinity true => false
  | infinity false, _ => false
  | _, infinity false => true
  | x, y => x.value < y.value

/-- Whether the first number is the second one or above it. -/
def ge (x y : Double) : Bool := x != nan && y != nan && !x.lt y

/-- The integer part, kept within 64 bits; a number that is not one counts as `0`. -/
def toInteger : Double → Int
  | nan => 0
  | infinity negative => if negative then -maxConstant - 1 else maxConstant
  | negativeZero => 0
  | finite q => clampInteger (if q < 0 then q.ceil else q.floor)

end Double

end Tabletop
