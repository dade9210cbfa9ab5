/-!
# Dice formulas

A formula is a flat sequence of operands with operators between them. An operand is a group of
dice, an integer, an `@path` variable, a formula in parentheses, or a function of one.
-/

namespace Tabletop

/-- Arithmetic between two operands. -/
inductive Operator where
  | add
  | subtract
  | multiply
  | divide
deriving DecidableEq

namespace Operator

def symbol : Operator → Char
  | add => '+'
  | subtract => '-'
  | multiply => '*'
  | divide => '/'

def ofSymbol? : Char → Option Operator
  | '+' => some add
  | '-' => some subtract
  | '*' => some multiply
  | '/' => some divide
  | _ => none

theorem ofSymbol?_eq_some_iff {c : Char} {op : Operator} : ofSymbol? c = some op ↔ c = op.symbol := by
  constructor
  · intro h
    rw [ofSymbol?.eq_def] at h
    split at h <;> cases h <;> rfl
  · rintro rfl
    cases op <;> rfl

end Operator

/-- What happens to the dice of one term after they are rolled, in the order in which it is
written. -/
inductive DieModifier where
  /-- Every die that shows less than the bound is rolled once more. -/
  | rerollBelow (bound : Nat)
  /-- Only the highest dice count. -/
  | keepHighest (count : Nat)
  /-- Only the lowest dice count. -/
  | keepLowest (count : Nat)
  /-- Every die counts as at least this much. -/
  | minimum (least : Nat)
deriving DecidableEq

/-- A number of equal dice that are rolled together. -/
structure DiceTerm where
  number : Nat
  faces : Nat
  modifiers : List DieModifier := []
deriving DecidableEq

/-- The most dice that one term may roll. -/
def maxDice : Nat := 1000

/-- Whether two terms differ at most in how many dice they roll. -/
def DiceTerm.sameKind (a b : DiceTerm) : Bool :=
  a.faces == b.faces && a.modifiers == b.modifiers

/-- Functions of one number. -/
inductive MathFunction where
  | floor
  | ceil
  | round
  | abs
deriving DecidableEq

namespace MathFunction

def name : MathFunction → String
  | floor => "floor"
  | ceil => "ceil"
  | round => "round"
  | abs => "abs"

def ofName? : String → Option MathFunction
  | "floor" => some floor
  | "ceil" => some ceil
  | "round" => some round
  | "abs" => some abs
  | _ => none

theorem ofName?_eq_some_iff {text : String} {f : MathFunction} :
    ofName? text = some f ↔ text = f.name := by
  constructor
  · intro h
    rw [ofName?.eq_def] at h
    split at h <;> cases h <;> rfl
  · rintro rfl
    cases f <;> rfl

end MathFunction

/-- One element of a formula. -/
inductive Term where
  | dice (dice : DiceTerm)
  | number (n : Int)
  | variable (path : String)
  | group (inner : List Term)
  | call (function : MathFunction) (argument : List Term)
  | operator (op : Operator)

/-- Terms in written order. Reading a text gives terms that alternate, operand, operator, operand;
a formula that is put together in another way need not alternate. -/
abbrev Formula := List Term

/-- Why a formula cannot be read or evaluated. -/
inductive FormulaError where
  | empty
  | unexpectedChar (position : Nat) (found : Char)
  | unexpectedEnd
  | invalidDice (text : String)
  | unknownFunction (name : String)
  | divisionByZero
deriving DecidableEq

def FormulaError.message : FormulaError → String
  | empty => "Empty formula"
  | unexpectedChar position found =>
    "Unexpected '" ++ String.singleton found ++ "' at position " ++ toString position
  | unexpectedEnd => "Unexpected end of formula"
  | invalidDice text => "Invalid dice term: " ++ text
  | unknownFunction name => "Unknown function: " ++ name
  | divisionByZero => "Division by zero"

mutual

/-- Terms are equal if they are equal at every depth. -/
def Term.decEq : (a b : Term) → Decidable (a = b)
  | .dice a, .dice b => if h : a = b then isTrue (h ▸ rfl) else isFalse (by simp [h])
  | .number a, .number b => if h : a = b then isTrue (h ▸ rfl) else isFalse (by simp [h])
  | .variable a, .variable b => if h : a = b then isTrue (h ▸ rfl) else isFalse (by simp [h])
  | .group a, .group b =>
    match Formula.decEq a b with
    | isTrue h => isTrue (h ▸ rfl)
    | isFalse h => isFalse (by simp [h])
  | .call f a, .call g b =>
    match Formula.decEq a b with
    | isTrue h => if hf : f = g then isTrue (h ▸ hf ▸ rfl) else isFalse (by simp [hf])
    | isFalse h => isFalse (by simp [h])
  | .operator a, .operator b => if h : a = b then isTrue (h ▸ rfl) else isFalse (by simp [h])
  | .dice _, .number _ | .dice _, .variable _ | .dice _, .group _ | .dice _, .call _ _
  | .dice _, .operator _ | .number _, .dice _ | .number _, .variable _ | .number _, .group _
  | .number _, .call _ _ | .number _, .operator _ | .variable _, .dice _ | .variable _, .number _
  | .variable _, .group _ | .variable _, .call _ _ | .variable _, .operator _ | .group _, .dice _
  | .group _, .number _ | .group _, .variable _ | .group _, .call _ _ | .group _, .operator _
  | .call _ _, .dice _ | .call _ _, .number _ | .call _ _, .variable _ | .call _ _, .group _
  | .call _ _, .operator _ | .operator _, .dice _ | .operator _, .number _
  | .operator _, .variable _ | .operator _, .group _ | .operator _, .call _ _ =>
    isFalse (by simp)

def Formula.decEq : (a b : List Term) → Decidable (a = b)
  | [], [] => isTrue rfl
  | a :: as, b :: bs =>
    match Term.decEq a b with
    | isTrue h =>
      match Formula.decEq as bs with
      | isTrue hs => isTrue (h ▸ hs ▸ rfl)
      | isFalse hs => isFalse (by simp [hs])
    | isFalse h => isFalse (by simp [h])
  | [], _ :: _ | _ :: _, [] => isFalse (by simp)

end

instance : DecidableEq Term := Term.decEq

end Tabletop
