import Tabletop.Formula.Parser
/-!
# The grammar of formulas

What texts are formulas, said without a reader. With `B` for blanks and `N` for digits:

    F ::= O (B op O)*
    O ::= B ((+ | -) B)* P
    P ::= N | N? (d | D) N M* | @ path | ( F B ) | name B ( F B )
    M ::= r< N | kh N? | kl N? | k N? | min N

Each rule relates a text to what it denotes. No rule looks ahead: that a number ends where its
digits end is not said here, and neither is that `kh` is not `k` with something behind it.
-/

namespace Tabletop.Grammar

open Text (isBlank)
open Formula (digitsValue isPathChar)

/-- Blanks, or nothing. -/
def Blanks (w : List Char) : Prop := ∀ c ∈ w, isBlank c = true

structure Digits (w : List Char) : Prop where
  written : w ≠ []
  all : ∀ c ∈ w, c.isDigit = true

/-- The digits of a number that is not above the limit. -/
structure Numeral (limit : Nat) (w : List Char) (n : Nat) : Prop where
  digits : Digits w
  value : digitsValue w = n
  bound : n ≤ limit

/-- The number of dice, which is one if nothing is written. -/
def DiceCount (w : List Char) (n : Nat) : Prop := w = [] ∧ n = 1 ∨ Numeral maxDice w n

/-- How many dice are kept: one if nothing is written, or if 32 bits do not hold what is written. -/
def KeepCount (w : List Char) (n : Nat) : Prop :=
  w = [] ∧ n = 1 ∨ Digits w ∧ n = if digitsValue w ≤ maxCount then digitsValue w else 1

inductive IsModifier : List Char → DieModifier → Prop
  | rerollBelow {w : List Char} {n : Nat} (count : Numeral maxCount w n) :
      IsModifier ('r' :: '<' :: w) (.rerollBelow n)
  | keepHighest {w : List Char} {n : Nat} (count : KeepCount w n) :
      IsModifier ('k' :: 'h' :: w) (.keepHighest n)
  | keepLowest {w : List Char} {n : Nat} (count : KeepCount w n) :
      IsModifier ('k' :: 'l' :: w) (.keepLowest n)
  | keep {w : List Char} {n : Nat} (count : KeepCount w n) :
      IsModifier ('k' :: w) (.keepHighest n)
  | minimum {w : List Char} {n : Nat} (count : Numeral maxCount w n) :
      IsModifier ('m' :: 'i' :: 'n' :: w) (.minimum n)

inductive AreModifiers : List Char → List DieModifier → Prop
  | nil : AreModifiers [] []
  | cons {w v : List Char} {m : DieModifier} {ms : List DieModifier} (first : IsModifier w m)
      (rest : AreModifiers v ms) : AreModifiers (w ++ v) (m :: ms)

/-- Signs, and blanks before, between and behind them. -/
def Signs (w : List Char) : Prop := ∀ c ∈ w, isBlank c = true ∨ c = '+' ∨ c = '-'

/-- Whether an odd number of the signs is a minus. -/
def Negates (w : List Char) : Prop := w.count '-' % 2 = 1

instance (w : List Char) : Decidable (Negates w) := inferInstanceAs (Decidable (_ = _))

theorem negates_minus_cons {w : List Char} : Negates ('-' :: w) ↔ ¬Negates w := by
  unfold Negates
  rw [List.count_cons_self]
  omega

theorem negates_cons_of_ne {c : Char} {w : List Char} (h : c ≠ '-') :
    Negates (c :: w) ↔ Negates w := by
  unfold Negates
  rw [List.count_cons_of_ne h]

mutual

inductive IsFormula : List Char → List Term → Prop
  | intro {w v : List Char} {t : Term} {ts : List Term} (first : IsOperand w t)
      (more : IsMore v ts) : IsFormula (w ++ v) (t :: ts)

/-- Operators with an operand behind each. -/
inductive IsMore : List Char → List Term → Prop
  | nil : IsMore [] []
  | cons {b w v : List Char} {op : Operator} {t : Term} {ts : List Term} (blanks : Blanks b)
      (operand : IsOperand w t) (more : IsMore v ts) :
      IsMore (b ++ op.symbol :: (w ++ v)) (.operator op :: t :: ts)

/-- An operand behind its signs: a constant is negated, and any other operand is subtracted from
zero. -/
inductive IsOperand : List Char → Term → Prop
  | plain {signs w : List Char} {t : Term} (signed : Signs signs) (even : ¬Negates signs)
      (primary : IsPrimary w t) : IsOperand (signs ++ w) t
  | constant {signs w : List Char} {n : Int} (signed : Signs signs) (odd : Negates signs)
      (primary : IsPrimary w (.number n)) : IsOperand (signs ++ w) (.number (-n))
  | subtracted {signs w : List Char} {t : Term} (signed : Signs signs) (odd : Negates signs)
      (primary : IsPrimary w t) (other : ∀ n, t ≠ .number n) :
      IsOperand (signs ++ w) (.group [.number 0, .operator .subtract, t])

inductive IsPrimary : List Char → Term → Prop
  | number {w : List Char} {n : Nat} (numeral : Numeral maxConstant w n) : IsPrimary w (.number n)
  | dice {count sides v : List Char} {d : Char} {number faces : Nat} {ms : List DieModifier}
      (counted : DiceCount count number) (letter : d = 'd' ∨ d = 'D')
      (sided : Numeral maxCount sides faces) (positive : 0 < faces) (modified : AreModifiers v ms) :
      IsPrimary (count ++ d :: (sides ++ v)) (.dice ⟨number, faces, ms⟩)
  | path {w : List Char} (written : w ≠ []) (chars : ∀ c ∈ w, isPathChar c = true) :
      IsPrimary ('@' :: w) (.variable (String.ofList w))
  | group {w b : List Char} {f : List Term} (inner : IsFormula w f) (blanks : Blanks b) :
      IsPrimary ('(' :: (w ++ (b ++ [')']))) (.group f)
  | call {name b w b' : List Char} {function : MathFunction} {f : List Term}
      (named : name.map Char.toLower = function.name.toList) (blanks : Blanks b)
      (argument : IsFormula w f) (blanks' : Blanks b') :
      IsPrimary (name ++ (b ++ '(' :: (w ++ (b' ++ [')'])))) (.call function f)

end

/-- A whole text: a formula with blanks around it. -/
def IsText (text : List Char) (f : Formula) : Prop :=
  ∃ b w b', text = b ++ (w ++ b') ∧ Blanks b ∧ IsFormula w f ∧ Blanks b'

/-- A text that can be continued to one of a formula. -/
def Begins (w : List Char) : Prop := ∃ more f, IsText (w ++ more) f

end Tabletop.Grammar
