import Tabletop.Formula.Basic
import Tabletop.Text.Blank
/-!
# Written form of formulas

Every formula has one canonical text: operators have a blank on each side, a keep count of one is
left out, and nothing else is spaced.
-/

namespace Tabletop

/-- The decimal digits of a count. -/
def countChars (n : Nat) : List Char := Nat.toDigits 10 n

/-- The decimal digits of an integer, after a minus sign if it is negative. -/
def integerChars (n : Int) : List Char :=
  if n < 0 then '-' :: countChars n.natAbs else countChars n.natAbs

/-- A keep count of one is not written. -/
def keepChars (n : Nat) : List Char := if n = 1 then [] else countChars n

def DieModifier.chars : DieModifier → List Char
  | .rerollBelow n => 'r' :: '<' :: countChars n
  | .keepHighest n => 'k' :: 'h' :: keepChars n
  | .keepLowest n => 'k' :: 'l' :: keepChars n
  | .minimum n => 'm' :: 'i' :: 'n' :: countChars n

def DiceTerm.chars (d : DiceTerm) : List Char :=
  countChars d.number ++ 'd' :: countChars d.faces ++ d.modifiers.flatMap DieModifier.chars

def DiceTerm.render (d : DiceTerm) : String := String.ofList d.chars

mutual

def Term.chars : Term → List Char
  | .dice d => d.chars
  | .number n => integerChars n
  | .variable path => '@' :: path.toList
  | .group inner => '(' :: (Formula.chars inner ++ [')'])
  | .call function argument =>
    function.name.toList ++ '(' :: (Formula.chars argument ++ [')'])
  | .operator op => [' ', op.symbol, ' ']

def Formula.chars : List Term → List Char
  | [] => []
  | t :: ts => t.chars ++ Formula.chars ts

end

/-- The canonical text of a formula. -/
def Formula.render (f : Formula) : String := String.ofList (Formula.chars f)

/-- Joins texts with `+`; blank ones are left out, and the others are trimmed. -/
def Formula.compose (parts : List String) : String :=
  String.ofList ([' ', '+', ' '].intercalate
    ((parts.map fun part => Text.trimChars part.toList).filter fun part => !part.isEmpty))

end Tabletop
