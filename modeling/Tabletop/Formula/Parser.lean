import Tabletop.Formula.Printer
import Tabletop.Number.Range
import Tabletop.Text.Scan
/-!
# Reading formulas

A formula is read from left to right with one character of look-ahead. Every step consumes text, so
what a step leaves comes with a proof that it is shorter. A step that fails keeps the text from the
offending place on, and the position in the whole text is found from its length.

Signs before an operand fold into it: an odd number of minus signs negates a constant, and turns
any other operand `x` into the group `(0 - x)`.
-/

namespace Tabletop

open Text (isBlank skipBlank length_skipBlank_le Scanned length_dropWhile_le)

namespace Formula

/-- Why reading stops. -/
inductive Stop where
  /-- The text goes on with something that fits nowhere, or ends too early. -/
  | unexpected (rest : List Char)
  | invalidDice (text : List Char)
  | unknownFunction (name : List Char)

/-- The error in terms of positions in the whole text, which has `size` characters. -/
def Stop.toError (size : Nat) : Stop → FormulaError
  | unexpected [] => .unexpectedEnd
  | unexpected (c :: rest) => .unexpectedChar (size - (rest.length + 1)) c
  | invalidDice text => .invalidDice (String.ofList text)
  | unknownFunction name => .unknownFunction (String.ofList name)

/-- The value of a run of decimal digits. -/
def digitsValue (digits : List Char) : Nat := Nat.ofDigitChars 10 digits 0

/-- The value of a non-empty run of digits, if it is not above the limit. -/
def countUpTo? (limit : Nat) (digits : List Char) : Option Nat :=
  if !digits.isEmpty && digitsValue digits ≤ limit then some (digitsValue digits) else none

/-- A count that has to be there. -/
def readRequiredCount (text : List Char) : Except Stop (Scanned Nat (text.length + 1)) :=
  let digits := text.takeWhile Char.isDigit
  let rest := text.dropWhile Char.isDigit
  if digits.isEmpty then .error (.unexpected rest)
  else
    match countUpTo? maxCount digits with
    | some n => .ok ⟨n, rest, Nat.lt_succ_of_le (length_dropWhile_le _ _)⟩
    | none => .error (.invalidDice digits)

/-- A count that may be left out and then is one; so does a count that is too great. -/
def readOptionalCount (text : List Char) : Scanned Nat (text.length + 1) :=
  ⟨(countUpTo? maxCount (text.takeWhile Char.isDigit)).getD 1, text.dropWhile Char.isDigit,
    Nat.lt_succ_of_le (length_dropWhile_le _ _)⟩

/-- The next modifier of a dice term, if there is one. -/
def readModifier? : (text : List Char) → Except Stop (Option (Scanned DieModifier text.length))
  | 'r' :: '<' :: text => do
    let count ← readRequiredCount text
    return some ⟨.rerollBelow count.value, count.rest, Nat.lt_succ_of_lt count.shorter⟩
  | 'k' :: 'h' :: text =>
    let count := readOptionalCount text
    return some ⟨.keepHighest count.value, count.rest, Nat.lt_succ_of_lt count.shorter⟩
  | 'k' :: 'l' :: text =>
    let count := readOptionalCount text
    return some ⟨.keepLowest count.value, count.rest, Nat.lt_succ_of_lt count.shorter⟩
  | 'm' :: 'i' :: 'n' :: text => do
    let count ← readRequiredCount text
    return some ⟨.minimum count.value, count.rest,
      Nat.lt_succ_of_lt (Nat.lt_succ_of_lt count.shorter)⟩
  | 'k' :: text =>
    let count := readOptionalCount text
    return some ⟨.keepHighest count.value, count.rest, count.shorter⟩
  | _ => return none

/-- As many modifiers as there are. -/
def readModifiers (text : List Char) :
    Except Stop (Scanned (List DieModifier) (text.length + 1)) := do
  match ← readModifier? text with
  | none => return ⟨[], text, Nat.lt_succ_self _⟩
  | some modifier =>
    let more ← readModifiers modifier.rest
    return ⟨modifier.value :: more.value, more.rest,
      Nat.lt_trans more.shorter (Nat.succ_lt_succ modifier.shorter)⟩
termination_by text.length
decreasing_by exact modifier.shorter

/-- The faces and modifiers of a dice term; its number and the `d` are already read. -/
def readDice (number : Nat) (text : List Char) : Except Stop (Scanned Term (text.length + 1)) :=
  let digits := text.takeWhile Char.isDigit
  let rest := text.dropWhile Char.isDigit
  match (countUpTo? maxCount digits).filter (0 < ·) with
  | none => .error (.invalidDice (countChars number ++ 'd' :: digits))
  | some faces => do
    let modifiers ← readModifiers rest
    return ⟨.dice ⟨number, faces, modifiers.value⟩, modifiers.rest,
      Nat.lt_of_lt_of_le modifiers.shorter (Nat.succ_le_succ (length_dropWhile_le _ _))⟩

/-- Whether the text starts with a `d` and a digit after it, which makes it a dice term. -/
def startsDice : List Char → Bool
  | c :: d :: _ => (c = 'd' || c = 'D') && d.isDigit
  | _ => false

/-- A constant, or a dice term with its number written; `first` is its first digit. -/
def readNumber (first : Char) (text : List Char) : Except Stop (Scanned Term (text.length + 1)) :=
  let digits := first :: text.takeWhile Char.isDigit
  let rest := text.dropWhile Char.isDigit
  if startsDice rest then
    match countUpTo? maxDice digits with
    | none => .error (.invalidDice (digits ++ ['d']))
    | some number => do
      let dice ← readDice number rest.tail
      return dice.weaken (Nat.succ_le_succ
        (Nat.le_trans (List.tail_sublist rest).length_le (length_dropWhile_le _ _)))
  else
    match countUpTo? maxConstant digits with
    | some n => .ok ⟨.number n, rest, Nat.lt_succ_of_le (length_dropWhile_le _ _)⟩
    | none => .error (.invalidDice digits)

/-- The characters of a variable's path. -/
def isPathChar (c : Char) : Bool := c.isAlphanum || c = '.' || c = '_'

/-- The path of a variable; the `@` is already read. -/
def readVariable (text : List Char) : Except Stop (Scanned Term (text.length + 1)) :=
  let path := text.takeWhile isPathChar
  let rest := text.dropWhile isPathChar
  if path.isEmpty then .error (.unexpected rest)
  else .ok ⟨.variable (String.ofList path), rest, Nat.lt_succ_of_le (length_dropWhile_le _ _)⟩

/-- Blanks and then the given character. -/
def expect (c : Char) (text : List Char) : Except Stop (Scanned Unit text.length) :=
  match h : skipBlank text with
  | [] => .error (.unexpected [])
  | d :: rest =>
    if d = c then
      .ok ⟨(), rest, by
        have := length_skipBlank_le text
        rw [h] at this
        exact this⟩
    else .error (.unexpected (d :: rest))

/-- The name of a function and the parenthesis after it; `first` is the name's first letter. -/
def readFunctionName (first : Char) (text : List Char) :
    Except Stop (Scanned MathFunction (text.length + 1)) := do
  let name := first :: text.takeWhile Char.isAlpha
  match MathFunction.ofName? (String.ofList (name.map Char.toLower)) with
  | none => .error (.unknownFunction name)
  | some function =>
    let paren ← expect '(' (text.dropWhile Char.isAlpha)
    return ⟨function, paren.rest, Nat.lt_of_lt_of_le paren.shorter
      (Nat.le_succ_of_le (length_dropWhile_le _ _))⟩

/-- Blanks and signs, and whether the number of minus signs among them is odd. -/
def readSigns (negative : Bool) : (text : List Char) → Bool × List Char
  | [] => (negative, [])
  | c :: text =>
    if isBlank c || c = '+' then readSigns negative text
    else if c = '-' then readSigns (!negative) text
    else (negative, c :: text)

theorem length_readSigns_le (negative : Bool) (text : List Char) :
    (readSigns negative text).2.length ≤ text.length := by
  induction text generalizing negative with
  | nil => exact Nat.le_refl _
  | cons c text ih =>
    rw [readSigns]
    split
    · exact Nat.le_succ_of_le (ih _)
    · split
      · exact Nat.le_succ_of_le (ih _)
      · exact Nat.le_refl _

/-- The operand behind an odd number of minus signs. -/
def negated : Term → Term
  | .number n => .number (-n)
  | t => .group [.number 0, .operator .subtract, t]

mutual

/-- An operand, and after it operators with one operand each. -/
def readFormula (text : List Char) : Except Stop (Scanned Formula text.length) := do
  let first ← readOperand text
  let more ← readMore first.rest
  return ⟨first.value :: more.value, more.rest,
    Nat.lt_of_lt_of_le more.shorter first.shorter⟩
termination_by (text.length, 2)
decreasing_by
  · exact Prod.Lex.right _ (by decide)
  · exact Prod.Lex.left _ _ first.shorter

/-- Operators with one operand each, as long as there are any. -/
def readMore (text : List Char) : Except Stop (Scanned Formula (text.length + 1)) :=
  match h : skipBlank text with
  | [] => .ok ⟨[], [], Nat.succ_pos _⟩
  | c :: rest =>
    have shorter : rest.length < text.length := by
      have := length_skipBlank_le text
      rw [h] at this
      exact this
    match Operator.ofSymbol? c with
    | none => .ok ⟨[], c :: rest, Nat.succ_lt_succ shorter⟩
    | some op => do
      let operand ← readOperand rest
      let more ← readMore operand.rest
      return ⟨.operator op :: operand.value :: more.value, more.rest,
        Nat.lt_of_lt_of_le more.shorter
          (Nat.le_succ_of_le (Nat.le_trans operand.shorter (Nat.le_of_lt shorter)))⟩
termination_by (text.length, 0)
decreasing_by
  · exact Prod.Lex.left _ _ shorter
  · exact Prod.Lex.left _ _ (Nat.lt_trans operand.shorter shorter)

/-- Signs, and the operand that they stand before. -/
def readOperand (text : List Char) : Except Stop (Scanned Term text.length) := do
  let signs := readSigns false text
  let operand ← readPrimary signs.2
  return ⟨if signs.1 then negated operand.value else operand.value, operand.rest,
    Nat.lt_of_lt_of_le operand.shorter (length_readSigns_le false text)⟩
termination_by (text.length, 1)
decreasing_by
  rcases Nat.lt_or_eq_of_le (length_readSigns_le false text) with shorter | same
  · exact Prod.Lex.left _ _ shorter
  · exact same ▸ Prod.Lex.right _ (by decide)

/-- An operand without signs. -/
def readPrimary : (text : List Char) → Except Stop (Scanned Term text.length)
  | [] => .error (.unexpected [])
  | c :: text =>
    if c.isDigit then readNumber c text
    else if startsDice (c :: text) then readDice 1 text
    else if c = '@' then readVariable text
    else if c = '(' then do
      let inner ← readFormula text
      let close ← expect ')' inner.rest
      return ⟨.group inner.value, close.rest,
        Nat.lt_succ_of_lt (Nat.lt_trans close.shorter inner.shorter)⟩
    else if c.isAlpha then do
      let function ← readFunctionName c text
      let argument ← readFormula function.rest
      let close ← expect ')' argument.rest
      return ⟨.call function.value argument.value, close.rest,
        Nat.lt_trans close.shorter (Nat.lt_trans argument.shorter function.shorter)⟩
    else .error (.unexpected (c :: text))
termination_by text => (text.length, 0)
decreasing_by
  · exact Prod.Lex.left _ _ (Nat.lt_succ_self _)
  · exact Prod.Lex.left _ _ function.shorter

end

/-- Reads a whole text as a formula, blanks around it aside. -/
def readAll (text : List Char) : Except FormulaError Formula :=
  match skipBlank text with
  | [] => .error .empty
  | c :: body =>
    match readFormula (c :: body) with
    | .error stop => .error (stop.toError text.length)
    | .ok formula =>
      match skipBlank formula.rest with
      | [] => .ok formula.value
      | d :: rest => .error (Stop.toError text.length (.unexpected (d :: rest)))

/-- Reads a text as a formula. -/
def parse (text : String) : Except FormulaError Formula := readAll text.toList

end Formula

end Tabletop
