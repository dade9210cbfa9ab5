import Tabletop.Document.Basic
import Tabletop.Text.Hex
import Tabletop.Text.Scan
/-!
# Scalars of TOML

Strings, and the values that are written without quotes: booleans, integers, floating point
numbers, and dates and times.
-/

namespace Tabletop.Toml

open Text (Scanned length_dropWhile_le length_le_succ length_lt_succ length_lt_add
  length_lt_add_five hexNumber? scalar?)

/-- Blanks within a line. -/
def isSpace (c : Char) : Bool := c = ' ' || c = '\t'

def skipSpaces (text : List Char) : List Char := text.dropWhile isSpace

/-- What may stand in a comment or in a string of one line: no control character but the tab. -/
def isText (c : Char) : Bool := c = '\t' || (0x20 ≤ c.toNat && c.toNat ≠ 0x7f)

/-! ## Strings -/

/-- What an escape stands for; its backslash is already read. -/
def readEscape : (text : List Char) → Option (Scanned Char text.length)
  | 'b' :: text => some ⟨'\x08', text, length_lt_succ text⟩
  | 't' :: text => some ⟨'\t', text, length_lt_succ text⟩
  | 'n' :: text => some ⟨'\n', text, length_lt_succ text⟩
  | 'f' :: text => some ⟨'\x0c', text, length_lt_succ text⟩
  | 'r' :: text => some ⟨'\r', text, length_lt_succ text⟩
  | '"' :: text => some ⟨'"', text, length_lt_succ text⟩
  | '\\' :: text => some ⟨'\\', text, length_lt_succ text⟩
  | 'u' :: a :: b :: c :: d :: text => do
    let char ← scalar? (← hexNumber? [a, b, c, d])
    return ⟨char, text, length_lt_add_five text⟩
  | 'U' :: a :: b :: c :: d :: e :: f :: g :: h :: text => do
    let char ← scalar? (← hexNumber? [a, b, c, d, e, f, g, h])
    return ⟨char, text, length_lt_add 8 text⟩
  | _ => none

/-- The rest of a string of one line; its opening quote is already read. -/
def readBasic : (text : List Char) → Option (Scanned (List Char) text.length)
  | [] => none
  | '"' :: text => some ⟨[], text, Nat.lt_succ_self _⟩
  | '\\' :: text => do
    let char ← readEscape text
    let more ← readBasic char.rest
    return ⟨char.value :: more.value, more.rest,
      Nat.lt_succ_of_lt (Nat.lt_trans more.shorter char.shorter)⟩
  | c :: text =>
    if isText c then do
      let more ← readBasic text
      return ⟨c :: more.value, more.rest, Nat.lt_succ_of_lt more.shorter⟩
    else none
termination_by text => text.length
decreasing_by
  · exact Nat.lt_succ_of_lt char.shorter
  · exact Nat.lt_succ_self _

/-- The rest of a string of one line without escapes. -/
def readLiteral (text : List Char) : Option (Scanned (List Char) text.length) :=
  match h : text.dropWhile fun c => isText c && c ≠ '\'' with
  | '\'' :: rest =>
    some ⟨text.takeWhile fun c => isText c && c ≠ '\'', rest, by
      have := length_dropWhile_le (fun c => isText c && c ≠ '\'') text
      rw [h] at this
      exact this⟩
  | _ => none

/-- The text without one line break at its start. -/
def dropNewline : List Char → List Char
  | '\n' :: text => text
  | '\r' :: '\n' :: text => text
  | text => text

theorem length_dropNewline_le (text : List Char) : (dropNewline text).length ≤ text.length := by
  rw [dropNewline.eq_def]
  split
  · exact Nat.le_succ _
  · exact Nat.le_succ_of_le (Nat.le_succ _)
  · exact Nat.le_refl _

/-- The text without the blanks and line breaks at its start. -/
def skipLines : List Char → List Char
  | [] => []
  | '\r' :: '\n' :: text => skipLines text
  | c :: text => if isSpace c || c = '\n' then skipLines text else c :: text

theorem length_skipLines_le (text : List Char) : (skipLines text).length ≤ text.length := by
  fun_induction skipLines text with
  | case1 => exact Nat.le_refl _
  | case2 text ih => exact Nat.le_succ_of_le (Nat.le_succ_of_le ih)
  | case3 c text _ _ ih => exact Nat.le_succ_of_le ih
  | case4 => exact Nat.le_refl _

/-- Whether only blanks are left on the line, which does end. -/
def lineEnds (text : List Char) : Bool :=
  match skipSpaces text with
  | '\n' :: _ => true
  | '\r' :: '\n' :: _ => true
  | _ => false

/-- The closing quotes of a string of several lines, which may have one or two quotes of its own
right before them. -/
def readClosing (quote : Char) : (text : List Char) → Option (Scanned (List Char) text.length)
  | a :: b :: c :: d :: e :: text =>
    if a = quote && b = quote && c = quote then
      if d = quote then
        if e = quote then some ⟨[quote, quote], text, by simp; omega⟩
        else some ⟨[quote], e :: text, by simp⟩
      else some ⟨[], d :: e :: text, by simp⟩
    else none
  | a :: b :: c :: text =>
    if a = quote && b = quote && c = quote then
      if text = [quote] then some ⟨[quote], [], by simp⟩
      else some ⟨[], text, by simp; omega⟩
    else none
  | _ => none

/-- The rest of a string of several lines. A backslash at the end of a line drops the blanks and
line breaks behind it. -/
def readBasicLines (text : List Char) : Option (Scanned (List Char) text.length) :=
  match readClosing '"' text with
  | some closing => some closing
  | none =>
    match text with
    | [] => none
    | '\\' :: text =>
      if lineEnds text then do
        let more ← readBasicLines (skipLines text)
        return ⟨more.value, more.rest,
          Nat.lt_succ_of_lt (Nat.lt_of_lt_of_le more.shorter (length_skipLines_le text))⟩
      else do
        let char ← readEscape text
        let more ← readBasicLines char.rest
        return ⟨char.value :: more.value, more.rest,
          Nat.lt_succ_of_lt (Nat.lt_trans more.shorter char.shorter)⟩
    | '\r' :: '\n' :: text => do
      let more ← readBasicLines text
      return ⟨'\n' :: more.value, more.rest, Nat.lt_succ_of_lt (Nat.lt_succ_of_lt more.shorter)⟩
    | c :: text =>
      if isText c || c = '\n' then do
        let more ← readBasicLines text
        return ⟨c :: more.value, more.rest, Nat.lt_succ_of_lt more.shorter⟩
      else none
termination_by text.length
decreasing_by
  · exact Nat.lt_succ_of_le (length_skipLines_le text)
  · exact Nat.lt_succ_of_lt char.shorter
  · exact Nat.lt_succ_of_lt (Nat.lt_succ_self _)
  · exact Nat.lt_succ_self _

/-- The rest of a string of several lines without escapes. -/
def readLiteralLines (text : List Char) : Option (Scanned (List Char) text.length) :=
  match readClosing '\'' text with
  | some closing => some closing
  | none =>
    match text with
    | [] => none
    | '\r' :: '\n' :: text => do
      let more ← readLiteralLines text
      return ⟨'\n' :: more.value, more.rest, Nat.lt_succ_of_lt (Nat.lt_succ_of_lt more.shorter)⟩
    | c :: text =>
      if isText c || c = '\n' then do
        let more ← readLiteralLines text
        return ⟨c :: more.value, more.rest, Nat.lt_succ_of_lt more.shorter⟩
      else none
termination_by text.length
decreasing_by
  · exact Nat.lt_succ_of_lt (Nat.lt_succ_self _)
  · exact Nat.lt_succ_self _

/-- A string of any kind. -/
def readString : (text : List Char) → Option (Scanned (List Char) text.length)
  | '"' :: '"' :: '"' :: text => do
    let string ← readBasicLines (dropNewline text)
    return string.weaken (by
      have := length_dropNewline_le text
      simp only [List.length_cons]
      omega)
  | '"' :: text => do
    let string ← readBasic text
    return string.weaken (length_le_succ text)
  | '\'' :: '\'' :: '\'' :: text => do
    let string ← readLiteralLines (dropNewline text)
    return string.weaken (by
      have := length_dropNewline_le text
      simp only [List.length_cons]
      omega)
  | '\'' :: text => do
    let string ← readLiteral text
    return string.weaken (length_le_succ text)
  | _ => none

/-! ## Numbers -/

/-- Digits with single underscores between them, and what is behind them. -/
def readRun (isDigit : Char → Bool) : List Char → List Char × List Char
  | [] => ([], [])
  | c :: text =>
    if isDigit c then
      let (digits, rest) := readRun isDigit text
      (c :: digits, rest)
    else if c = '_' && text.head?.any isDigit then readRun isDigit text
    else ([], c :: text)

/-- Digits that make up a whole text, which must start with one. -/
def wholeRun? (isDigit : Char → Bool) (text : List Char) : Option (List Char) :=
  match readRun isDigit text with
  | (digits, []) => if text.head?.any isDigit then some digits else none
  | _ => none

/-- A sign, and what is behind it. -/
def readSign : List Char → Bool × List Char
  | '-' :: text => (true, text)
  | '+' :: text => (false, text)
  | text => (false, text)

/-- Digits of a decimal number, without a zero at their start unless they are a single zero. -/
def isWhole (digits : List Char) : Bool := !digits.isEmpty && (digits = ['0'] || digits.head? ≠ some '0')

def digitOf (base : Nat) (c : Char) : Bool := (Text.hexValue? c).any (· < base)

/-- The number that digits spell. -/
def numberIn (base : Nat) (digits : List Char) : Nat :=
  digits.foldl (fun n c => base * n + (Text.hexValue? c).getD 0) 0

/-- An integer of 64 bits. -/
def integer? (text : List Char) : Option Int :=
  let fitting (n : Int) : Option Int := if isInteger64 n then some n else none
  let based (base : Nat) (digits : List Char) : Option Int :=
    (wholeRun? (digitOf base) digits).bind fun digits => fitting (numberIn base digits)
  match text with
  | '0' :: 'x' :: digits => based 16 digits
  | '0' :: 'o' :: digits => based 8 digits
  | '0' :: 'b' :: digits => based 2 digits
  | text => do
    let (negative, digits) := readSign text
    let digits ← wholeRun? Char.isDigit digits
    if isWhole digits then
      let n : Int := numberIn 10 digits
      fitting (if negative then -n else n)
    else none

/-- The double nearest to `significand * 10 ^ exponent`; the bounds keep the powers small. -/
def nearestDouble (significand : Nat) (exponent : Int) : Double :=
  let digits : Int := (Nat.toDigits 10 significand).length
  if significand = 0 || digits + exponent < -330 then .finite 0
  else if 310 < digits + exponent then .infinity false
  else .ofRat (mkRat (significand * Nat.pow 10 exponent.toNat) (Nat.pow 10 (-exponent).toNat))

/-- A floating point number. One that is too great is refused, unless it is negative. -/
def float? (text : List Char) : Option Double := do
  let (negative, magnitude) := readSign text
  let signed (x : Double) : Double := if negative then -x else x
  if magnitude = ['i', 'n', 'f'] then return signed (.infinity false)
  if magnitude = ['n', 'a', 'n'] then return .nan
  let (whole, rest) := readRun Char.isDigit magnitude
  if !isWhole whole || !magnitude.head?.any Char.isDigit then none
  let (fraction, rest) ←
    match rest with
    | '.' :: rest =>
      if rest.head?.any Char.isDigit then some (readRun Char.isDigit rest) else none
    | rest => some ([], rest)
  let exponent ←
    match rest with
    | [] => if fraction.isEmpty then none else some 0
    | e :: rest =>
      if e = 'e' || e = 'E' then do
        let (negative, digits) := readSign rest
        let n : Int := numberIn 10 (← wholeRun? Char.isDigit digits)
        some (if negative then -n else n)
      else none
  let x := nearestDouble (numberIn 10 (whole ++ fraction)) (exponent - fraction.length)
  if x = .infinity false && !negative then none else return signed x

/-! ## Dates and times -/

/-- Two digits with a value in a range, and what is behind them. -/
def readTwo (least greatest : Nat) : List Char → Option (Nat × List Char)
  | a :: b :: text =>
    if a.isDigit && b.isDigit then
      let n := numberIn 10 [a, b]
      if least ≤ n && n ≤ greatest then some (n, text) else none
    else none
  | _ => none

/-- The number of days of a month. -/
def daysOf (year month : Nat) : Nat :=
  if month = 2 then
    if year % 4 = 0 && (year % 100 ≠ 0 || year % 400 = 0) then 29 else 28
  else if [4, 6, 9, 11].contains month then 30
  else 31

/-- What is behind a date. -/
def readDate : List Char → Option (List Char)
  | a :: b :: c :: d :: '-' :: text => do
    let year := [a, b, c, d]
    if !year.all Char.isDigit then none
    let (month, text) ← readTwo 1 12 text
    match text with
    | '-' :: text => do
      let (_, text) ← readTwo 1 (daysOf (numberIn 10 year) month) text
      return text
    | _ => none
  | _ => none

/-- What is behind a time of day. -/
def readTime (text : List Char) : Option (List Char) := do
  let (_, text) ← readTwo 0 23 text
  let ':' :: text := text | none
  let (_, text) ← readTwo 0 59 text
  let ':' :: text := text | none
  let (_, text) ← readTwo 0 60 text
  match text with
  | '.' :: text => if text.head?.any Char.isDigit then some (text.dropWhile Char.isDigit) else none
  | text => some text

/-- Whether the text is empty or the offset of a time zone. -/
def isOffset : List Char → Bool
  | [] => true
  | ['Z'] => true
  | ['z'] => true
  | sign :: text =>
    (sign = '+' || sign = '-') &&
      match readTwo 0 23 text with
      | some (_, ':' :: text) => (readTwo 0 59 text).any (·.2.isEmpty)
      | _ => false

/-- Whether the text is a date, a time, or both with or without an offset. -/
def isDateTime (text : List Char) : Bool :=
  match readDate text with
  | some [] => true
  | some (separator :: time) =>
    (separator = 'T' || separator = 't' || separator = ' ') && (readTime time).any isOffset
  | none => (readTime text).any List.isEmpty

/-- A date or a time counts as an object with one entry, whose name no field has. -/
def dateDocument (text : List Char) : Document :=
  .object [("$date", .string (String.ofList text))]

/-! ## Values without quotes -/

/-- The characters of values without quotes, but for the blank between a date and a time. -/
def isPlain (c : Char) : Bool := c.isAlphanum || "_+-.:".contains c

/-- The value that a whole text without quotes stands for. -/
def plain? (text : List Char) : Option Document :=
  if text = ['t', 'r', 'u', 'e'] then some (.bool true)
  else if text = ['f', 'a', 'l', 's', 'e'] then some (.bool false)
  else if isDateTime text then some (dateDocument text)
  else (integer? text).map .integer <|> (float? text).map .float

/-- A value without quotes. -/
def readPlain (text : List Char) : Option (Scanned Document (text.length + 1)) :=
  let token := text.takeWhile isPlain
  let rest := text.dropWhile isPlain
  have shorter : rest.length ≤ text.length := length_dropWhile_le _ _
  match hr : rest with
  | ' ' :: time =>
    if (readDate token).any List.isEmpty && time.head?.any Char.isDigit then do
      let value ← plain? (token ++ ' ' :: time.takeWhile isPlain)
      return ⟨value, time.dropWhile isPlain, by
        have := length_dropWhile_le isPlain time
        simp only [List.length_cons] at shorter
        omega⟩
    else do
      let value ← plain? token
      return ⟨value, ' ' :: time, Nat.lt_succ_of_le shorter⟩
  | rest => do
    let value ← plain? token
    return ⟨value, rest, Nat.lt_succ_of_le shorter⟩

end Tabletop.Toml
