import Tabletop.Number.Double
/-!
# Shortest decimal text of a double

A number is written with the fewest digits that read back as it, and of those texts with the one
nearest to it. The text is positional from `0.0001` up to below `10 ^ 16` and has an exponent
outside that range.
-/

namespace Tabletop.Double

/-- The number `0.d₁d₂… × 10 ^ exponent`, without zeros at the end of the digits. -/
structure Decimal where
  digits : List Char
  exponent : Int

/-- `10 ^ exponent`. -/
def powerOfTen (exponent : Int) : Rat :=
  mkRat (Nat.pow 10 exponent.toNat) (Nat.pow 10 (-exponent).toNat)

/-- The exponent `e` with `10 ^ (e - 1) ≤ q < 10 ^ e`, for a positive `q`. -/
def decimalExponent (q : Rat) : Int :=
  let guess : Int := (Nat.toDigits 10 q.num.natAbs).length - (Nat.toDigits 10 q.den).length
  if powerOfTen guess ≤ q then guess + 1 else guess

/-- The number of `grid` steps nearest to `q` that reads back as `q`, if one of the two neighbours
of `q` does; the upper one on a tie. -/
def onGrid (q grid : Rat) : Option Nat :=
  let lower := (q / grid).floor.toNat
  let reads (n : Nat) : Bool := ofRat ((n : Rat) * grid) = finite q
  let below := q - (lower : Rat) * grid
  let upperIsNearer := grid ≤ 2 * below
  match reads lower, reads (lower + 1) with
  | true, true => some (if upperIsNearer then lower + 1 else lower)
  | true, false => some lower
  | false, true => some (lower + 1)
  | false, false => none

/-- The first grid with a hit, out of those with `places`, `places + 1`, … digits. -/
def firstOnGrid (q : Rat) (exponent : Int) (places : Nat) : Nat → Option (Nat × Int)
  | 0 => none
  | tries + 1 =>
    let step := exponent - places
    match onGrid q (powerOfTen step) with
    | some n => some (n, step)
    | none => firstOnGrid q exponent (places + 1) tries

def dropTrailingZeros (digits : List Char) : List Char :=
  (digits.reverse.dropWhile (· == '0')).reverse

/-- The shortest decimal number that reads back as the positive number `q`; seventeen digits are
always enough. -/
def shortest (q : Rat) : Decimal :=
  match firstOnGrid q (decimalExponent q) 1 17 with
  | some (n, step) =>
    let digits := Nat.toDigits 10 n
    ⟨dropTrailingZeros digits, step + digits.length⟩
  | none => ⟨['0'], 1⟩

namespace Decimal

/-- The digits with a point between them, and at least one digit on each side of it. -/
def positional (d : Decimal) : List Char :=
  let places := d.exponent.toNat
  if d.exponent ≤ 0 then '0' :: '.' :: List.replicate (-d.exponent).toNat '0' ++ d.digits
  else if d.digits.length ≤ places then
    d.digits ++ List.replicate (places - d.digits.length) '0' ++ ['.', '0']
  else d.digits.take places ++ '.' :: d.digits.drop places

/-- One digit before the point, then the exponent of ten. -/
def scientific (d : Decimal) : List Char :=
  let fraction := d.digits.drop 1
  d.digits.take 1 ++ (if fraction.isEmpty then [] else '.' :: fraction) ++
    'e' :: (toString (d.exponent - 1)).toList

end Decimal

/-- The text of a positive rational number that is a double. -/
def magnitudeText (q : Rat) : List Char :=
  let d := shortest q
  if powerOfTen 16 ≤ q || q < powerOfTen (-4) then d.scientific else d.positional

/-- The shortest text that reads back as the number. Only finite numbers have one. -/
def text? : Double → Option String
  | nan => none
  | infinity _ => none
  | negativeZero => some "-0.0"
  | finite q =>
    if q = 0 then some "0.0"
    else if q < 0 then some (String.ofList ('-' :: magnitudeText (-q)))
    else some (String.ofList (magnitudeText q))

theorem text?_eq_none_iff (x : Double) : x.text? = none ↔ x = nan ∨ ∃ b, x = infinity b := by
  cases x with
  | finite q =>
    rw [text?]
    split
    · simp
    · split <;> simp
  | _ => simp [text?]

/-! Texts on both sides of the bounds of positional notation, and the fewest digits. -/

example : (finite (1 / 4)).text? = some "0.25" := by decide +kernel
example : (ofRat (1 / 10)).text? = some "0.1" := by decide +kernel
example : (ofRat (mkRat 1 10000)).text? = some "0.0001" := by decide +kernel
example : (ofRat (mkRat 1 20000)).text? = some "5e-5" := by decide +kernel
example : (ofInt 1000000000000000).text? = some "1000000000000000.0" := by decide +kernel
example : (ofInt (-10000000000000000)).text? = some "-1e16" := by decide +kernel
example : (ofInt 9007199254740993).text? = some "9007199254740992.0" := by decide +kernel

end Tabletop.Double
