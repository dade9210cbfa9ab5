import Tabletop.Document.Basic
import Tabletop.Text.Hex
import Tabletop.Text.Scan
/-!
# Reading JSON

The integers from `-2 ^ 63` up to below `2 ^ 64` are integers; every other number, the one written
`-0` included, is a floating point number. Of entries with one name the last one counts.
-/

namespace Tabletop.Document

open Text (Scanned length_dropWhile_le length_le_succ length_lt_succ length_lt_add
  length_lt_add_five hexNumber? scalar?)

/-- What JSON allows between tokens. -/
def isJsonSpace (c : Char) : Bool := c = ' ' || c = '\n' || c = '\r' || c = '\t'

def skipSpace (text : List Char) : List Char := text.dropWhile isJsonSpace

/-- What an escape of one letter stands for. -/
def simpleEscape? : Char → Option Char
  | '"' => some '"'
  | '\\' => some '\\'
  | '/' => some '/'
  | 'b' => some '\x08'
  | 'f' => some '\x0c'
  | 'n' => some '\n'
  | 'r' => some '\r'
  | 't' => some '\t'
  | _ => none

/-- The rest of a string; its opening quote is already read. Two escapes of surrogates stand for
one character. -/
def readStringBody : (text : List Char) → Option (Scanned (List Char) text.length)
  | '"' :: text => some ⟨[], text, length_lt_succ text⟩
  | '\\' :: 'u' :: a :: b :: c :: d :: '\\' :: 'u' :: e :: f :: g :: h :: text => do
    let high ← hexNumber? [a, b, c, d]
    if 0xD800 ≤ high && high < 0xDC00 then
      let low ← hexNumber? [e, f, g, h]
      if 0xDC00 ≤ low && low < 0xE000 then
        let char ← scalar? (0x10000 + (high - 0xD800) * 0x400 + (low - 0xDC00))
        let more ← readStringBody text
        return (more.map (char :: ·)).weaken (Nat.le_of_lt (length_lt_add 11 text))
      else none
    else
      let char ← scalar? high
      let more ← readStringBody ('\\' :: 'u' :: e :: f :: g :: h :: text)
      return (more.map (char :: ·)).weaken (Nat.le_of_lt (length_lt_add 5 _))
  | '\\' :: 'u' :: a :: b :: c :: d :: text => do
    let char ← scalar? (← hexNumber? [a, b, c, d])
    let more ← readStringBody text
    return (more.map (char :: ·)).weaken (Nat.le_of_lt (length_lt_add 5 text))
  | '\\' :: c :: text => do
    let char ← simpleEscape? c
    let more ← readStringBody text
    return (more.map (char :: ·)).weaken (Nat.le_of_lt (length_lt_add 1 text))
  | c :: text =>
    if c.toNat < 0x20 then none
    else do
      let more ← readStringBody text
      return (more.map (c :: ·)).weaken (length_le_succ text)
  | [] => none
termination_by text => text.length

/-- The parts of a written number. -/
structure Numeral where
  negative : Bool
  whole : List Char
  /-- The digits behind the point, if there is a point. -/
  fraction : Option (List Char)
  exponent : Option Int

/-- The number of digits that are kept of a run of digits before the value leaves 64 bits, and the
value of those. -/
def leadingDigits (value kept : Nat) : List Char → Nat × Nat
  | [] => (value, kept)
  | c :: digits =>
    let next := 10 * value + (c.toNat - '0'.toNat)
    if maxIndex < next then (value, kept) else leadingDigits next (kept + 1) digits

/-- A power of ten that is a factor of its own; greater ones are out of the range of a double. -/
def tenPower (n : Nat) : Double := .ofRat (Nat.pow 10 n : Nat)

/-- Divides by `10 ^ n`, in steps that are within the range of a double. -/
def divideByTens (x : Double) (n : Nat) : Double :=
  if n ≤ 308 then x / tenPower n
  else if x.isZero then x
  else divideByTens (x / tenPower 308) (n - 308)
termination_by n

/-- `significand * 10 ^ exponent`: the significand is rounded to a double, and the product or
quotient with the power of ten once more. A number that is too great is refused. -/
def scaleByTens? (significand : Nat) (exponent : Int) : Option Double :=
  let x := Double.ofInt significand
  if exponent < 0 then some (divideByTens x exponent.natAbs)
  else if x.isZero then some x
  else if 308 < exponent then none
  else
    match x * tenPower exponent.toNat with
    | .infinity _ => none
    | y => some y

/-- The floating point number of a numeral: the digits behind those that fit into 64 bits do not
count, except for the place of the point. -/
def Numeral.toFloat? (n : Numeral) : Option Double := do
  let fraction := n.fraction.getD []
  let (whole, keptWhole) := leadingDigits 0 0 n.whole
  let dropped := n.whole.length - keptWhole
  let (significand, kept) :=
    if dropped = 0 then leadingDigits whole 0 fraction else (whole, 0)
  let kept := if dropped = 0 then kept else 0
  let magnitude ← scaleByTens? significand (n.exponent.getD 0 + dropped - kept)
  return if n.negative then -magnitude else magnitude

def Numeral.toDocument? (n : Numeral) : Option Document :=
  let value : Int := Nat.ofDigitChars 10 n.whole 0
  let value := if n.negative then -value else value
  let isInteger := n.fraction.isNone && n.exponent.isNone && -maxConstant - 1 ≤ value &&
    value ≤ maxIndex && !(n.negative && value = 0)
  if isInteger then some (integer value) else n.toFloat?.map float

/-- The fraction of a number, if there is one. -/
def readFraction (text : List Char) : Option (Scanned (Option (List Char)) (text.length + 1)) :=
  match text with
  | '.' :: text =>
    let digits := text.takeWhile Char.isDigit
    if digits.isEmpty then none
    else some ⟨some digits, text.dropWhile Char.isDigit,
      Nat.lt_succ_of_le (Nat.le_succ_of_le (length_dropWhile_le _ _))⟩
  | text => some ⟨none, text, Nat.lt_succ_self _⟩

/-- The exponent of a number, if there is one. -/
def readExponent (text : List Char) : Option (Scanned (Option Int) (text.length + 1)) :=
  match text with
  | e :: rest =>
    if e = 'e' || e = 'E' then
      let negative := rest.head? = some '-'
      let digitsAt :=
        match rest with
        | '-' :: r => r
        | '+' :: r => r
        | r => r
      let digits := digitsAt.takeWhile Char.isDigit
      let value : Int := Nat.ofDigitChars 10 digits 0
      if digits.isEmpty then none
      else some ⟨some (if negative then -value else value), digitsAt.dropWhile Char.isDigit, by
        refine Nat.lt_succ_of_le (Nat.le_trans (length_dropWhile_le _ _) ?_)
        show digitsAt.length ≤ rest.length + 1
        simp only [digitsAt]
        split
        · exact Nat.le_succ_of_le (Nat.le_succ _)
        · exact Nat.le_succ_of_le (Nat.le_succ _)
        · exact Nat.le_succ _⟩
    else some ⟨none, e :: rest, Nat.lt_succ_self _⟩
  | [] => some ⟨none, [], Nat.lt_succ_self _⟩

/-- A number, whose sign is already read. -/
def readNumeral (negative : Bool) (text : List Char) : Option (Scanned Document text.length) :=
  match text with
  | [] => none
  | c :: tail =>
    if c.isDigit then do
      let whole := if c = '0' then ['0'] else c :: tail.takeWhile Char.isDigit
      let rest := if c = '0' then tail else tail.dropWhile Char.isDigit
      if c = '0' && (tail.head?.any Char.isDigit) then none
      let fraction ← readFraction rest
      let exponent ← readExponent fraction.rest
      let value ← Numeral.toDocument? ⟨negative, whole, fraction.value, exponent.value⟩
      return ⟨value, exponent.rest, by
        have h₁ := exponent.shorter
        have h₂ := fraction.shorter
        have h₃ : rest.length ≤ tail.length := by
          simp only [rest]
          split
          · exact Nat.le_refl _
          · exact length_dropWhile_le _ _
        simp only [List.length_cons]
        omega⟩
    else none

/-- A value that is a word. -/
def readWord : (text : List Char) → Option (Scanned Document text.length)
  | 't' :: 'r' :: 'u' :: 'e' :: rest => some ⟨.bool true, rest, length_lt_add 3 rest⟩
  | 'f' :: 'a' :: 'l' :: 's' :: 'e' :: rest => some ⟨.bool false, rest, length_lt_add_five rest⟩
  | 'n' :: 'u' :: 'l' :: 'l' :: rest => some ⟨.null, rest, length_lt_add 3 rest⟩
  | _ => none

mutual

/-- A value, behind any space. -/
def readValue (text : List Char) : Option (Scanned Document text.length) :=
  match h : skipSpace text with
  | [] => none
  | c :: rest =>
    have shorter : rest.length < text.length := by
      have := length_dropWhile_le isJsonSpace text
      rw [show text.dropWhile isJsonSpace = c :: rest from h] at this
      exact this
    if c = '"' then do
      let string ← readStringBody rest
      return ⟨.string (String.ofList string.value), string.rest,
        Nat.lt_trans string.shorter shorter⟩
    else if c = '[' then do
      let items ← readItems rest true
      return ⟨.array items.value, items.rest, Nat.lt_of_lt_of_le items.shorter (Nat.le_of_lt shorter)⟩
    else if c = '\x7b' then do
      let fields ← readFields rest true
      return ⟨.object (fields.value.foldl (fun all f => setField f.1 f.2 all) []), fields.rest,
        Nat.lt_of_lt_of_le fields.shorter (Nat.le_of_lt shorter)⟩
    else if c = '-' then do
      let number ← readNumeral true rest
      return ⟨number.value, number.rest, Nat.lt_trans number.shorter shorter⟩
    else if c.isDigit then do
      let number ← readNumeral false (c :: rest)
      return ⟨number.value, number.rest, Nat.lt_of_lt_of_le number.shorter shorter⟩
    else do
      let word ← readWord (c :: rest)
      return ⟨word.value, word.rest, Nat.lt_of_lt_of_le word.shorter shorter⟩
termination_by (text.length, 0)
decreasing_by
  all_goals exact Prod.Lex.left _ _ shorter

/-- The rest of an array; `first` tells that no item was read yet. -/
def readItems (text : List Char) (first : Bool) :
    Option (Scanned (List Document) text.length) :=
  match h : skipSpace text with
  | [] => none
  | c :: rest =>
    have shorter : rest.length < text.length := by
      have := length_dropWhile_le isJsonSpace text
      rw [show text.dropWhile isJsonSpace = c :: rest from h] at this
      exact this
    if c = ']' then some ⟨[], rest, shorter⟩
    else if first then do
      let item ← readValue text
      let more ← readItems item.rest false
      return ⟨item.value :: more.value, more.rest, Nat.lt_trans more.shorter item.shorter⟩
    else if c = ',' then do
      let item ← readValue rest
      let more ← readItems item.rest false
      return ⟨item.value :: more.value, more.rest,
        Nat.lt_trans more.shorter (Nat.lt_trans item.shorter shorter)⟩
    else none
termination_by (text.length, 1)
decreasing_by
  · exact Prod.Lex.right _ (by decide)
  · exact Prod.Lex.left _ _ item.shorter
  · exact Prod.Lex.left _ _ shorter
  · exact Prod.Lex.left _ _ (Nat.lt_trans item.shorter shorter)

/-- The rest of an object; `first` tells that no entry was read yet. -/
def readFields (text : List Char) (first : Bool) :
    Option (Scanned (List (String × Document)) text.length) :=
  match h : skipSpace text with
  | [] => none
  | c :: rest =>
    have shorter : rest.length < text.length := by
      have := length_dropWhile_le isJsonSpace text
      rw [show text.dropWhile isJsonSpace = c :: rest from h] at this
      exact this
    if c = '\x7d' then some ⟨[], rest, shorter⟩
    else if first || c = ',' then do
      let start := if first then c :: rest else rest
      have start_le : start.length ≤ text.length := by
        simp only [start]
        split
        · exact shorter
        · exact Nat.le_of_lt shorter
      match hs : skipSpace start with
      | '"' :: body =>
        have body_lt : body.length < text.length := by
          have := length_dropWhile_le isJsonSpace start
          rw [show start.dropWhile isJsonSpace = '"' :: body from hs] at this
          exact Nat.lt_of_lt_of_le this start_le
        let name ← readStringBody body
        match hn : skipSpace name.rest with
        | ':' :: tail =>
          have tail_lt : tail.length < text.length := by
            have := length_dropWhile_le isJsonSpace name.rest
            rw [show name.rest.dropWhile isJsonSpace = ':' :: tail from hn] at this
            exact Nat.lt_trans (Nat.lt_of_lt_of_le this (Nat.le_of_lt name.shorter)) body_lt
          let value ← readValue tail
          let more ← readFields value.rest false
          return ⟨(String.ofList name.value, value.value) :: more.value, more.rest,
            Nat.lt_trans more.shorter (Nat.lt_trans value.shorter tail_lt)⟩
        | _ => none
      | _ => none
    else none
termination_by (text.length, 1)
decreasing_by
  · exact Prod.Lex.left _ _ tail_lt
  · exact Prod.Lex.left _ _ (Nat.lt_trans value.shorter tail_lt)

end

/-- Reads a whole text as one JSON value. -/
def ofJson? (text : String) : Option Document :=
  match readValue text.toList with
  | some value => if (skipSpace value.rest).isEmpty then some value.value else none
  | none => none

end Tabletop.Document
