import Tabletop.Toml.Scalar
import Tabletop.Toml.Table
/-!
# Reading TOML

A text is a sequence of lines: a header, a key with its value, a comment, or nothing.
-/

namespace Tabletop.Toml

open Text (Scanned length_dropWhile_le length_le_succ)

/-- The characters of keys without quotes. -/
def isBare (c : Char) : Bool := c.isAlphanum || c = '_' || c = '-'

/-- One part of a dotted key. -/
def readKeyPart (text : List Char) : Option (Scanned String text.length) :=
  match text with
  | [] => none
  | '"' :: text => do
    let string ← readBasic text
    return (string.map String.ofList).weaken (length_le_succ text)
  | '\'' :: text => do
    let string ← readLiteral text
    return (string.map String.ofList).weaken (length_le_succ text)
  | c :: text =>
    if isBare c then
      some ⟨String.ofList (c :: text.takeWhile isBare), text.dropWhile isBare,
        Nat.lt_succ_of_le (length_dropWhile_le _ _)⟩
    else none

/-- The parts of a dotted key, with blanks around them. -/
def readKeyParts (text : List Char) : Option (Scanned (List String) text.length) :=
  have before := length_dropWhile_le isSpace text
  match readKeyPart (skipSpaces text) with
  | none => none
  | some part =>
    have behind := length_dropWhile_le isSpace part.rest
    match h : skipSpaces part.rest with
    | '.' :: rest => do
      have shorter : rest.length < text.length := by
        rw [show part.rest.dropWhile isSpace = '.' :: rest from h] at behind
        exact Nat.lt_of_lt_of_le (Nat.lt_of_lt_of_le behind (Nat.le_of_lt part.shorter)) before
      let more ← readKeyParts rest
      return ⟨part.value :: more.value, more.rest, Nat.lt_trans more.shorter shorter⟩
    | rest =>
      some ⟨[part.value], rest, by
        rw [show part.rest.dropWhile isSpace = rest from h] at behind
        exact Nat.lt_of_lt_of_le (Nat.lt_of_le_of_lt behind part.shorter) before⟩
termination_by text.length
decreasing_by exact shorter

/-- How many parts a key has at most, and how deep values are nested at most. -/
def maxDepth : Nat := 79

/-- The path and the last part of a dotted key. -/
def splitKey? (parts : List String) : Option (List String × String) :=
  if parts.length ≤ maxDepth then parts.getLast?.map fun key => (parts.dropLast, key) else none

/-- A dotted key, as a path and a last part. -/
def readKey (text : List Char) : Option (Scanned (List String × String) text.length) := do
  let parts ← readKeyParts text
  return ⟨← splitKey? parts.value, parts.rest, parts.shorter⟩

/-- The text without blanks, line breaks and comments at its start. -/
def skipTrivia (text : List Char) : List Char :=
  match h : skipLines text with
  | '#' :: rest =>
    have shorter : (rest.dropWhile isText).length < text.length := by
      have := length_skipLines_le text
      rw [h] at this
      exact Nat.lt_of_le_of_lt (length_dropWhile_le _ _) this
    skipTrivia (rest.dropWhile isText)
  | rest => rest
termination_by text.length
decreasing_by exact shorter

theorem length_skipTrivia_le (text : List Char) : (skipTrivia text).length ≤ text.length := by
  fun_induction skipTrivia text with
  | case1 text rest h shorter ih => exact Nat.le_trans ih (Nat.le_of_lt shorter)
  | case2 text => exact length_skipLines_le text

mutual

/-- A value; its text does not start with a blank. At most `depth` arrays and inline tables may be
nested in each other. -/
def readValue (depth : Nat) (text : List Char) : Option (Scanned Document (text.length + 1)) :=
  match text with
  | [] => none
  | c :: text =>
    if c = '"' || c = '\'' then do
      let string ← readString (c :: text)
      return (string.map fun s => .string (String.ofList s)).weaken (Nat.le_succ _)
    else if c = '[' then
      if depth = 0 then none
      else do
        let items ← readItems (depth - 1) text
        return (items.map .array).weaken (Nat.le_succ_of_le (Nat.le_succ _))
    else if c = '\x7b' then
      if depth = 0 then none
      else do
        let bindings ← readBindings (depth - 1) text true
        let object ← Table.inlineObject? bindings.value
        return ⟨object, bindings.rest, Nat.lt_succ_of_lt (Nat.lt_succ_of_lt bindings.shorter)⟩
    else readPlain (c :: text)
termination_by (text.length, 0)
decreasing_by
  all_goals exact Prod.Lex.left _ _ (Nat.lt_succ_self _)

/-- The rest of an array; its opening bracket, or the comma behind an item, is already read. -/
def readItems (depth : Nat) (text : List Char) : Option (Scanned (List Document) text.length) :=
  match h : skipTrivia text with
  | ']' :: rest => some ⟨[], rest, by
      have := length_skipTrivia_le text
      rw [h] at this
      exact this⟩
  | start =>
    have start_le : start.length ≤ text.length := by
      have := length_skipTrivia_le text
      rw [h] at this
      exact this
    do
      let item ← readValue depth start
      have item_le : item.rest.length ≤ text.length :=
        Nat.le_trans (Nat.le_of_lt_succ item.shorter) start_le
      match hr : skipTrivia item.rest with
      | ']' :: rest => some ⟨[item.value], rest, by
          have := length_skipTrivia_le item.rest
          rw [hr] at this
          exact Nat.lt_of_lt_of_le this item_le⟩
      | ',' :: rest =>
        have shorter : rest.length < text.length := by
          have := length_skipTrivia_le item.rest
          rw [hr] at this
          exact Nat.lt_of_lt_of_le this item_le
        let more ← readItems depth rest
        return ⟨item.value :: more.value, more.rest, Nat.lt_trans more.shorter shorter⟩
      | _ => none
termination_by (text.length, 1)
decreasing_by
  · rcases Nat.lt_or_eq_of_le start_le with lt | eq
    · exact Prod.Lex.left _ _ lt
    · exact eq ▸ Prod.Lex.right _ (by decide)
  · exact Prod.Lex.left _ _ shorter

/-- The rest of an inline table; `first` tells that no entry was read yet. It ends on its line. -/
def readBindings (depth : Nat) (text : List Char) (first : Bool) :
    Option (Scanned (List (List String × String × Document)) text.length) :=
  have spaces := length_dropWhile_le isSpace text
  if h : first = true ∧ (skipSpaces text).head? = some '\x7d' then
    some ⟨[], (skipSpaces text).tail, by
      cases e : skipSpaces text with
      | nil =>
        rw [e] at h
        exact absurd h.2 (by simp)
      | cons c rest =>
        rw [show text.dropWhile isSpace = c :: rest from e] at spaces
        exact spaces⟩
  else do
    let key ← readKey text
    match hk : key.rest with
    | '=' :: behind =>
      have behind_lt : behind.length < text.length := by
        have := key.shorter
        rw [hk] at this
        exact Nat.lt_of_succ_lt this
      have start_le := length_dropWhile_le isSpace behind
      let value ← readValue depth (skipSpaces behind)
      have value_lt : value.rest.length < text.length :=
        Nat.lt_of_le_of_lt (Nat.le_trans (Nat.le_of_lt_succ value.shorter) start_le) behind_lt
      have rest_le := length_dropWhile_le isSpace value.rest
      match hr : skipSpaces value.rest with
      | '\x7d' :: rest => some ⟨[(key.value.1, key.value.2, value.value)], rest, by
          rw [show value.rest.dropWhile isSpace = '\x7d' :: rest from hr] at rest_le
          exact Nat.lt_trans rest_le value_lt⟩
      | ',' :: rest =>
        have shorter : rest.length < text.length := by
          rw [show value.rest.dropWhile isSpace = ',' :: rest from hr] at rest_le
          exact Nat.lt_trans rest_le value_lt
        let more ← readBindings depth rest false
        return ⟨(key.value.1, key.value.2, value.value) :: more.value, more.rest,
          Nat.lt_trans more.shorter shorter⟩
      | _ => none
    | _ => none
termination_by (text.length, 1)
decreasing_by
  · exact Prod.Lex.left _ _ (Nat.lt_of_le_of_lt start_le behind_lt)
  · exact Prod.Lex.left _ _ shorter

end

/-- The end of a line: blanks, a comment if there is one, and a line break or the end of the text. -/
def readLineEnd (text : List Char) : Option (List Char) :=
  let rest :=
    match skipSpaces text with
    | '#' :: comment => comment.dropWhile isText
    | rest => rest
  match rest with
  | [] => some []
  | '\n' :: rest => some rest
  | '\r' :: '\n' :: rest => some rest
  | _ => none

/-- The rest of a header behind its opening brackets, of which there are one or two. -/
def readHeader (brackets : Nat) (text : List Char) :
    Option ((List String × String) × List Char) := do
  let key ← readKey text
  if key.rest.take brackets = List.replicate brackets ']' then
    return (key.value, key.rest.drop brackets)
  else none

/-- One line that is not empty, and what is behind its end. -/
def readLine (tree : Tree) (text : List Char) : Option (Tree × List Char) :=
  match text with
  | '[' :: '[' :: text => do
    let (key, rest) ← readHeader 2 text
    return (← tree.openElement? key.1 key.2, ← readLineEnd rest)
  | '[' :: text => do
    let (key, rest) ← readHeader 1 text
    return (← tree.openTable? key.1 key.2, ← readLineEnd rest)
  | text => do
    let key ← readKey text
    match key.rest with
    | '=' :: rest => do
      let value ← readValue maxDepth (skipSpaces rest)
      return (← tree.bind? key.value.1 key.value.2 value.value, ← readLineEnd value.rest)
    | _ => none

/-- The tree with all lines of a text. Every line consumes text, so the length of the text is
enough for all of them. -/
def readLines : (fuel : Nat) → Tree → List Char → Option Tree
  | 0, _, _ => none
  | fuel + 1, tree, text =>
    match skipTrivia text with
    | [] => some tree
    | start => do
      let (tree, rest) ← readLine tree start
      readLines fuel tree rest

/-- Reads a whole text, which may start with a byte order mark. -/
def readText (text : List Char) : Option Document := do
  let body :=
    match text with
    | '\ufeff' :: body => body
    | body => body
  let tree ← readLines (body.length + 1) {} body
  return (← tree.close?).toDocument

end Tabletop.Toml

/-- Reads a TOML text. -/
def Tabletop.Document.ofToml? (text : String) : Option Tabletop.Document :=
  Tabletop.Toml.readText text.toList
