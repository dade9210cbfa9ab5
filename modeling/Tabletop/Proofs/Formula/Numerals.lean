import Mathlib
import Tabletop.Proofs.Formula.Parsing
import Tabletop.Proofs.Formula.Recognition
/-!
# Written numbers

The numbers of a text are found without reading it as a formula: a number starts at a digit that is
neither behind another digit nor in the path of a variable, and what stands before and behind it
tells which field it is for. A text that is read gives a formula with the same numbers in the same
order, as they are written, with one exception: a number of dice to be kept that 32 bits do not hold
is replaced by one. What a formula has beyond the numbers of its text are the ones and zeros that
need not be written.
-/

namespace Tabletop

open Formula (digitsValue startsDice isPathChar)
open Text (isBlank)

/-- A number with the field that it is for. -/
inductive WrittenNumber where
  /-- A constant with its sign. -/
  | constant (n : Int)
  /-- How many dice are rolled. -/
  | count (n : Nat)
  | faces (n : Nat)
  /-- What a die must show in order not to be rolled again. -/
  | bound (n : Nat)
  /-- How many dice are kept. -/
  | kept (n : Nat)
  /-- The least that a die counts. -/
  | least (n : Nat)
deriving DecidableEq

namespace WrittenNumber

/-- Whether the field holds the number. -/
def fits : WrittenNumber → Bool
  | constant n => n.natAbs ≤ maxConstant
  | count n => n ≤ maxDice
  | faces n => 0 < n && n ≤ maxCount
  | bound n => n ≤ maxCount
  | kept n => n ≤ maxCount
  | least n => n ≤ maxCount

/-- What a formula has where the number is written. -/
def read : WrittenNumber → WrittenNumber
  | kept n => kept (if n ≤ maxCount then n else 1)
  | w => w

/-- Whether a formula can have the number without its being written: the one of a single die or of a
single die to be kept, and the zero from which a negative operand is subtracted. -/
def implied (w : WrittenNumber) : Bool := w = count 1 || w = kept 1 || w = constant 0

theorem read_eq_self_of_fits {w : WrittenNumber} (h : w.fits = true) : w.read = w := by
  cases w with
  | kept n => exact congrArg kept (if_pos (of_decide_eq_true h))
  | _ => rfl

end WrittenNumber

/-! ## The numbers of a text -/

/-- Where in a text a character stands. -/
inductive Place where
  /-- Before an operand, behind signs that negate it or not. -/
  | operand (negative : Bool)
  /-- In a number. -/
  | digits
  /-- In the path of a variable. -/
  | path
  /-- Behind a character that belongs to an operand or follows it. -/
  | behind (last : Char)
deriving DecidableEq

namespace Place

/-- Where the next character stands if this one is neither a sign nor in a path. -/
def follow (c : Char) : Place :=
  if c = '(' || (Operator.ofSymbol? c).isSome then operand false
  else if c.isDigit then digits
  else behind c

def next : Place → Char → Place
  | operand negative, c =>
    if isBlank c || c = '+' then operand negative
    else if c = '-' then operand (!negative)
    else if c = '@' then path
    else follow c
  | path, c => if isPathChar c then path else follow c
  | digits, c => follow c
  | behind _, c => follow c

/-- The number that starts here, from its value and the text behind it. -/
def number? : Place → Nat → List Char → Option WrittenNumber
  | operand negative, n, rest =>
    if startsDice rest then some (.count n) else some (.constant (if negative then -n else n))
  | behind last, n, _ =>
    if last = 'd' || last = 'D' then some (.faces n)
    else if last = '<' then some (.bound n)
    else if last = 'n' then some (.least n)
    else some (.kept n)
  | _, _, _ => none

/-- The numbers of a text that starts here. -/
def numbers (place : Place) : List Char → List WrittenNumber
  | [] => []
  | c :: text =>
    let digits := (c :: text).takeWhile Char.isDigit
    let rest := (c :: text).dropWhile Char.isDigit
    (if c.isDigit then (place.number? (digitsValue digits) rest).toList else []) ++
      (place.next c).numbers text

end Place

/-- The numbers of a text in the order in which they are written. -/
def writtenNumbers (text : String) : List WrittenNumber := (Place.operand false).numbers text.toList

example : writtenNumbers "-3 + 2d6kh1" = [.constant (-3), .count 2, .faces 6, .kept 1] := by decide

/-! ## The numbers of a formula -/

def DieModifier.number : DieModifier → WrittenNumber
  | rerollBelow bound => .bound bound
  | keepHighest count => .kept count
  | keepLowest count => .kept count
  | minimum least => .least least

mutual

def Term.numbers : Term → List WrittenNumber
  | .number n => [.constant n]
  | .dice d => .count d.number :: .faces d.faces :: d.modifiers.map (·.number)
  | .group inner => Formula.numbers inner
  | .call _ argument => Formula.numbers argument
  | .variable _ => []
  | .operator _ => []

/-- The numbers of a formula in the order of its terms. -/
def Formula.numbers : List Term → List WrittenNumber
  | [] => []
  | t :: ts => t.numbers ++ Formula.numbers ts

end

/-- All of some numbers are among others, in the same order, and beyond them are only those that
need not be written. -/
inductive Spells : List WrittenNumber → List WrittenNumber → Prop
  | nil : Spells [] []
  | written (w : WrittenNumber) {ws ns : List WrittenNumber} (rest : Spells ws ns) :
      Spells (w :: ws) (w :: ns)
  | implied {w : WrittenNumber} {ws ns : List WrittenNumber} (unwritten : w.implied = true)
      (rest : Spells ws ns) : Spells ws (w :: ns)

namespace Spells

theorem append {ws ws' ns ns' : List WrittenNumber} (h : Spells ws ns) (h' : Spells ws' ns') :
    Spells (ws ++ ws') (ns ++ ns') := by
  induction h with
  | nil => exact h'
  | written w _ ih => exact .written w ih
  | implied unwritten _ ih => exact .implied unwritten ih

theorem subset {ws ns : List WrittenNumber} (h : Spells ws ns) : ws ⊆ ns := by
  induction h with
  | nil => exact List.Subset.refl _
  | written w _ ih => exact List.cons_subset_cons w ih
  | implied _ _ ih => exact List.subset_cons_of_subset _ ih

end Spells

/-- The numbers of a formula are read from written ones. -/
structure ReadFrom (ws ns : List WrittenNumber) : Prop where
  spelled : Spells (ws.map (·.read)) ns
  held : ∀ w ∈ ws, w.fits = true ∨ ∃ n, w = .kept n
  fits : ∀ n ∈ ns, n.fits = true

namespace ReadFrom

theorem nil : ReadFrom [] [] := ⟨.nil, List.forall_mem_nil _, List.forall_mem_nil _⟩

theorem append {ws ws' ns ns' : List WrittenNumber} (h : ReadFrom ws ns) (h' : ReadFrom ws' ns') :
    ReadFrom (ws ++ ws') (ns ++ ns') where
  spelled := by
    rw [List.map_append]
    exact h.spelled.append h'.spelled
  held := List.forall_mem_append.2 ⟨h.held, h'.held⟩
  fits := List.forall_mem_append.2 ⟨h.fits, h'.fits⟩

theorem singleton {w : WrittenNumber} (h : w.fits = true) : ReadFrom [w] [w] where
  spelled := by
    rw [List.map_singleton, w.read_eq_self_of_fits h]
    exact .written w .nil
  held := List.forall_mem_singleton.2 (Or.inl h)
  fits := List.forall_mem_singleton.2 h

theorem unwritten {w : WrittenNumber} (h : w.implied = true) (fits : w.fits = true) :
    ReadFrom [] [w] :=
  ⟨.implied h .nil, List.forall_mem_nil _, List.forall_mem_singleton.2 fits⟩

end ReadFrom

namespace Formula

open Grammar

/-! ## Texts of which numbers are parts -/

theorem numbers_cons_of_not_isDigit {c : Char} (place : Place) (other : c.isDigit = false)
    (text : List Char) : place.numbers (c :: text) = (place.next c).numbers text := by
  rw [Place.numbers, other]
  rfl

/-- Places from which a text goes on alike if it does not go on with a digit. -/
theorem numbers_congr {place place' : Place} {text : List Char}
    (stop : ∀ c ∈ text.head?, c.isDigit = false ∧ place.next c = place'.next c) :
    place.numbers text = place'.numbers text := by
  cases text with
  | nil => rfl
  | cons c text =>
    obtain ⟨other, same⟩ := stop c rfl
    rw [numbers_cons_of_not_isDigit place other, numbers_cons_of_not_isDigit place' other, same]

/-- The numbers of what is left behind an operand. -/
abbrev numbersBehind (text : List Char) : List WrittenNumber := (Place.behind ' ').numbers text

theorem numbers_behind {last : Char} {text : List Char}
    (stop : ∀ c ∈ text.head?, c.isDigit = false) :
    (Place.behind last).numbers text = numbersBehind text :=
  numbers_congr fun c head => ⟨stop c head, rfl⟩

theorem next_of_isPathChar {place : Place} (outside : place ≠ .path) {c : Char}
    (h : isPathChar c = true) : place.next c = if c.isDigit then .digits else .behind c := by
  have visible := isBlank_eq_false_of_isPathChar h
  have inside := isEnd_eq_false_of_isPathChar h
  simp only [isEnd, Bool.or_eq_false_iff, decide_eq_false_iff_not] at inside
  have ne {d : Char} (other : isPathChar d = false) : c ≠ d := by
    rintro rfl
    cases h.symm.trans other
  have follows : Place.follow c = if c.isDigit then .digits else .behind c := by
    rw [Place.follow, inside.2, decide_eq_false (ne (d := '(') (by decide))]
    rfl
  cases place with
  | operand negative =>
    rw [Place.next, visible, decide_eq_false (ne (d := '+') (by decide)),
      if_neg (ne (d := '-') (by decide)), if_neg (ne (d := '@') (by decide))]
    exact follows
  | digits => exact follows
  | path => exact absurd rfl outside
  | behind last => exact follows

/-- A whole number is found, and nothing more in its digits. -/
theorem numbers_digits {place : Place} (outside : place ≠ .path) {w rest : List Char}
    (digits : Digits w) (stop : ∀ c ∈ rest.head?, c.isDigit = false) :
    place.numbers (w ++ rest) =
      (place.number? (digitsValue w) rest).toList ++ numbersBehind rest := by
  obtain ⟨taken, left⟩ := takeWhile_append_of_stop digits.all stop
  obtain ⟨c, v, rfl⟩ := List.exists_cons_of_ne_nil digits.written
  obtain ⟨digit, others⟩ := List.forall_mem_cons.1 digits.all
  have onward {place : Place} (outside : place ≠ .path) {c : Char} (digit : c.isDigit = true) :
      place.next c = .digits := by
    rw [next_of_isPathChar outside (isPathChar_of_isDigit digit), if_pos digit]
  have inside (v : List Char) (all : ∀ d ∈ v, d.isDigit = true) :
      Place.digits.numbers (v ++ rest) = numbersBehind rest := by
    induction v with
    | nil => exact numbers_congr fun c head => ⟨stop c head, rfl⟩
    | cons d v ih =>
      obtain ⟨digit, others⟩ := List.forall_mem_cons.1 all
      rw [List.cons_append, Place.numbers, onward (by decide) digit, if_pos digit, ih others]
      rfl
  rw [List.cons_append] at taken left ⊢
  rw [Place.numbers, taken, left, if_pos digit, onward outside digit, inside v others]

theorem numbers_path {w rest : List Char} (chars : ∀ c ∈ w, isPathChar c = true)
    (ends : Ends rest) : Place.path.numbers (w ++ rest) = numbersBehind rest := by
  induction w with
  | nil =>
    refine numbers_congr fun c head => ⟨ends.not_isDigit c head, ?_⟩
    rw [Place.next, if_neg (Bool.eq_false_iff.1 (ends.not_isPathChar c head))]
    rfl
  | cons c w ih =>
    obtain ⟨first, others⟩ := List.forall_mem_cons.1 chars
    rw [List.cons_append, Place.numbers, Place.next, if_pos first, ih others]
    split
    · rfl
    · rfl

theorem isDigit_eq_false_of_isBlank {c : Char} (h : isBlank c = true) : c.isDigit = false := by
  by_contra digit
  have word := isPathChar_of_isDigit (Bool.not_eq_false _ ▸ digit)
  cases h.symm.trans (isBlank_eq_false_of_isPathChar word)

theorem not_isDigit_append {b rest : List Char} (blanks : Blanks b)
    (stop : ∀ c ∈ rest.head?, c.isDigit = false) : ∀ c ∈ (b ++ rest).head?, c.isDigit = false := by
  cases b with
  | nil => exact stop
  | cons c b =>
    rintro _ ⟨⟩
    exact isDigit_eq_false_of_isBlank (blanks c List.mem_cons_self)

theorem follow_of_isBlank {c : Char} (h : isBlank c = true) : Place.follow c = .behind c := by
  have other : Operator.ofSymbol? c = none := by
    cases found : Operator.ofSymbol? c with
    | none => rfl
    | some op =>
      obtain rfl := Operator.ofSymbol?_eq_some_iff.1 found
      cases h.symm.trans (isBlank_symbol op)
  have ne : c ≠ '(' := by
    rintro rfl
    exact absurd h (by decide)
  rw [Place.follow, other, isDigit_eq_false_of_isBlank h, decide_eq_false ne]
  rfl

theorem numbersBehind_blanks {b rest : List Char} (blanks : Blanks b)
    (stop : ∀ c ∈ rest.head?, c.isDigit = false) :
    numbersBehind (b ++ rest) = numbersBehind rest := by
  induction b with
  | nil => rfl
  | cons c b ih =>
    obtain ⟨first, others⟩ := List.forall_mem_cons.1 blanks
    rw [List.cons_append, numbersBehind,
      numbers_cons_of_not_isDigit _ (isDigit_eq_false_of_isBlank first), Place.next,
      follow_of_isBlank first, numbers_behind (not_isDigit_append others stop), ih others]

theorem numbers_signs {signs : List Char} (signed : Signs signs) (negative : Bool)
    (rest : List Char) : (Place.operand negative).numbers (signs ++ rest) =
      (Place.operand (negative ^^ decide (Negates signs))).numbers rest := by
  induction signs generalizing negative with
  | nil => exact congrArg (fun sign => (Place.operand sign).numbers rest) (Bool.xor_false _).symm
  | cons s signs ih =>
    obtain ⟨skipped, others⟩ := List.forall_mem_cons.1 signed
    have undigit : s.isDigit = false := by
      rcases skipped with blank | rfl | rfl
      · exact isDigit_eq_false_of_isBlank blank
      · decide
      · decide
    rw [List.cons_append, numbers_cons_of_not_isDigit _ undigit, Place.next]
    by_cases minus : s = '-'
    · subst minus
      rw [if_neg (by decide), if_pos rfl, ih others, decide_eq_decide.2 negates_minus_cons,
        decide_not, Bool.not_xor, Bool.xor_not]
    · have other : (isBlank s || decide (s = '+')) = true := by
        rw [Bool.or_eq_true, decide_eq_true_eq]
        exact skipped.imp_right fun sign => sign.resolve_right minus
      rw [if_pos other, ih others, decide_eq_decide.2 (negates_cons_of_ne minus)]

/-! ## What is read where numbers are written -/

section

variable {w rest : List Char} {n : Nat}

theorem numbers_required (last : Char) (numeral : Numeral maxCount w n)
    (stop : ∀ c ∈ rest.head?, c.isDigit = false) :
    (Place.behind last).numbers (w ++ rest) =
      ((Place.behind last).number? n rest).toList ++ numbersBehind rest := by
  rw [numbers_digits (by rintro ⟨⟩) numeral.digits stop, numeral.value]

/-- A count of dice to be kept may be missing, or be read as another one. -/
theorem numbers_optional (last : Char) (keeps : KeepCount w n)
    (letter : last = 'k' ∨ last = 'h' ∨ last = 'l') (stop : ∀ c ∈ rest.head?, c.isDigit = false) :
    ∃ ws, (Place.behind last).numbers (w ++ rest) = ws ++ numbersBehind rest ∧
      ReadFrom ws [.kept n] := by
  rcases keeps with ⟨rfl, rfl⟩ | ⟨digits, rfl⟩
  · exact ⟨[], numbers_behind stop, .unwritten (by decide) (by decide)⟩
  · have found : (Place.behind last).number? (digitsValue w) rest =
        some (.kept (digitsValue w)) := by
      rcases letter with rfl | rfl | rfl <;> rfl
    refine ⟨[.kept (digitsValue w)], ?_, .written _ .nil, ?_, ?_⟩
    · rw [numbers_digits (by rintro ⟨⟩) digits stop, found]
      rfl
    · exact List.forall_mem_singleton.2 (Or.inr ⟨_, rfl⟩)
    · refine List.forall_mem_singleton.2 (decide_eq_true ?_)
      split
      · next held => exact held
      · decide

theorem numbersBehind_isModifier {m : DieModifier} (h : IsModifier w m)
    (stop : ∀ c ∈ rest.head?, c.isDigit = false) :
    ∃ ws, numbersBehind (w ++ rest) = ws ++ numbersBehind rest ∧ ReadFrom ws [m.number] := by
  cases h with
  | rerollBelow count =>
    exact ⟨_, numbers_required '<' count stop, .singleton (decide_eq_true count.bound)⟩
  | keepHighest count => exact numbers_optional 'h' count (by decide) stop
  | keepLowest count => exact numbers_optional 'l' count (by decide) stop
  | keep count => exact numbers_optional 'k' count (by decide) stop
  | minimum count =>
    exact ⟨_, numbers_required 'n' count stop, .singleton (decide_eq_true count.bound)⟩

end

theorem numbersBehind_areModifiers {w rest : List Char} {ms : List DieModifier}
    (h : AreModifiers w ms) (ends : Ends rest) :
    ∃ ws, numbersBehind (w ++ rest) = ws ++ numbersBehind rest ∧
      ReadFrom ws (ms.map (·.number)) := by
  induction h with
  | nil => exact ⟨[], rfl, .nil⟩
  | @cons w v m ms first more ih =>
    have stop : ∀ c ∈ (v ++ rest).head?, c.isDigit = false :=
      fun c head => (endsModifier_of_areModifiers more ends c head).1
    obtain ⟨ws, here, read⟩ := numbersBehind_isModifier first stop
    obtain ⟨ws', later, read'⟩ := ih
    refine ⟨ws ++ ws', ?_, read.append read'⟩
    rw [List.append_assoc, here, later, List.append_assoc]

theorem numbers_dice {count sides v rest : List Char} {d : Char} {number faces : Nat}
    {ms : List DieModifier} (counted : DiceCount count number) (letter : d = 'd' ∨ d = 'D')
    (sided : Numeral maxCount sides faces) (positive : 0 < faces) (modified : AreModifiers v ms)
    (ends : Ends rest) (negative : Bool) :
    ∃ ws, (Place.operand negative).numbers (count ++ d :: (sides ++ v) ++ rest) =
        ws ++ numbersBehind rest ∧ ReadFrom ws (Term.dice ⟨number, faces, ms⟩).numbers := by
  have stop : ∀ c ∈ (v ++ rest).head?, c.isDigit = false :=
    fun c head => (endsModifier_of_areModifiers modified ends c head).1
  obtain ⟨ws, later, read⟩ := numbersBehind_areModifiers modified ends
  have shown : (Place.behind d).numbers (sides ++ (v ++ rest)) =
      .faces faces :: (ws ++ numbersBehind rest) := by
    rw [numbers_required d sided stop, later]
    rcases letter with rfl | rfl <;> rfl
  have held : (WrittenNumber.faces faces).fits = true := by
    rw [WrittenNumber.fits, decide_eq_true positive, decide_eq_true sided.bound]
    rfl
  have sides_read := (ReadFrom.singleton held).append read
  rw [List.append_assoc, List.cons_append, List.append_assoc]
  rcases counted with ⟨rfl, rfl⟩ | numeral
  · have single : ReadFrom [] [.count 1] := .unwritten (by decide) (by decide)
    refine ⟨.faces faces :: ws, ?_, single.append sides_read⟩
    rw [List.cons_append, ← shown]
    rcases letter with rfl | rfl <;> rfl
  · have undigit : ∀ c ∈ (d :: (sides ++ (v ++ rest))).head?, c.isDigit = false := by
      rintro c ⟨⟩
      rcases letter with rfl | rfl <;> decide
    have counts : (WrittenNumber.count number).fits = true := decide_eq_true numeral.bound
    refine ⟨.count number :: .faces faces :: ws, ?_, (ReadFrom.singleton counts).append sides_read⟩
    rw [numbers_digits (by rintro ⟨⟩) numeral.digits undigit, Place.number?,
      if_pos (startsDice_of_letter letter sided.digits _), numeral.value, List.cons_append,
      List.cons_append, ← shown]
    rcases letter with rfl | rfl <;> rfl

/-- The letters of a function are passed, and so is the parenthesis behind them. -/
theorem numbers_name {name b : List Char} {function : MathFunction}
    (named : name.map Char.toLower = function.name.toList) (blanks : Blanks b) (negative : Bool)
    (rest : List Char) : (Place.operand negative).numbers (name ++ (b ++ '(' :: rest)) =
      (Place.operand false).numbers rest := by
  have step {place : Place} (outside : place ≠ .path) {c : Char} (letter : c.isAlpha = true)
      (text : List Char) : place.numbers (c :: text) = (Place.behind c).numbers text := by
    have other := Bool.eq_false_iff.2 (not_isDigit_of_isAlpha letter)
    rw [numbers_cons_of_not_isDigit place other,
      next_of_isPathChar outside (isPathChar_of_isAlpha letter),
      if_neg (not_isDigit_of_isAlpha letter)]
  have inside (w : List Char) (letters : ∀ c ∈ w, c.isAlpha = true) (last : Char) :
      (Place.behind last).numbers (w ++ (b ++ '(' :: rest)) =
        (Place.operand false).numbers rest := by
    induction w generalizing last with
    | nil =>
      have stop : ∀ c ∈ ('(' :: rest).head?, c.isDigit = false := by
        rintro c ⟨⟩
        decide
      rw [List.nil_append, numbers_behind (not_isDigit_append blanks stop),
        numbersBehind_blanks blanks stop]
      rfl
    | cons c w ih =>
      obtain ⟨letter, letters⟩ := List.forall_mem_cons.1 letters
      rw [List.cons_append, step (by rintro ⟨⟩) letter, ih letters]
  obtain ⟨c, cs, rfl, -, -, letters⟩ := letters_of_named named
  obtain ⟨letter, letters⟩ := List.forall_mem_cons.1 letters
  rw [List.cons_append, step (by rintro ⟨⟩) letter, inside cs letters]

theorem numbers_close {b rest : List Char} (blanks : Blanks b) (ends : Ends rest) :
    numbersBehind (b ++ ')' :: rest) = numbersBehind rest := by
  have stop : ∀ c ∈ (')' :: rest).head?, c.isDigit = false := by
    rintro c ⟨⟩
    decide
  rw [numbersBehind_blanks blanks stop]
  exact numbers_behind ends.not_isDigit

/-- What is not a constant has the same numbers with a sign, and the zero that it is subtracted
from. -/
theorem readFrom_signed {ws : List WrittenNumber} {t : Term} (h : ReadFrom ws t.numbers)
    (other : ∀ n, t ≠ .number n) (negative : Bool) :
    ReadFrom ws (if negative then negated t else t).numbers := by
  cases negative with
  | false => exact h
  | true =>
    have zero : ReadFrom [] [.constant 0] := .unwritten (by decide) (by decide)
    rw [if_pos rfl, negated_of_ne_number other, Term.numbers, Formula.numbers, Formula.numbers,
      Formula.numbers, Formula.numbers, List.append_nil]
    exact zero.append h

theorem numbers_constant {w rest : List Char} {n : Nat} (numeral : Numeral maxConstant w n)
    (ends : Ends rest) (negative : Bool) :
    ∃ ws, (Place.operand negative).numbers (w ++ rest) = ws ++ numbersBehind rest ∧
      ReadFrom ws (if negative then negated (.number n) else .number n).numbers := by
  refine ⟨[.constant (if negative then -n else n)], ?_, ?_⟩
  · rw [numbers_digits (by rintro ⟨⟩) numeral.digits ends.not_isDigit, Place.number?,
      if_neg (startsDice_of_ends ends), numeral.value]
    rfl
  · have held : (WrittenNumber.constant (if negative then -n else n)).fits = true := by
      refine decide_eq_true ?_
      have bound := numeral.bound
      split
      · omega
      · omega
    cases negative with
    | false => exact .singleton held
    | true => exact .singleton held

/-- Signs before an operand have no numbers, and decide whether it is negated. -/
theorem numbers_operand {signs w rest : List Char} {t : Term} (signed : Signs signs)
    (primary : ∀ negative, ∃ ws, (Place.operand negative).numbers (w ++ rest) =
      ws ++ numbersBehind rest ∧ ReadFrom ws (if negative then negated t else t).numbers) :
    ∃ ws, (Place.operand false).numbers (signs ++ w ++ rest) = ws ++ numbersBehind rest ∧
      ReadFrom ws (if decide (Negates signs) then negated t else t).numbers := by
  obtain ⟨ws, here, read⟩ := primary (decide (Negates signs))
  refine ⟨ws, ?_, read⟩
  rw [List.append_assoc, numbers_signs signed, Bool.false_xor, here]

-- By recursion on the derivations, with any text behind the one that is derived.
mutual

theorem numbers_isFormula {w rest : List Char} {f : Formula} (h : IsFormula w f)
    (ends : Ends rest) :
    ∃ ws, (Place.operand false).numbers (w ++ rest) = ws ++ numbersBehind rest ∧
      ReadFrom ws (numbers f) := by
  match h, ends with
  | @IsFormula.intro w v t ts first more, ends =>
    obtain ⟨ws, here, read⟩ := numbers_isOperand first (ends_of_isMore more ends)
    obtain ⟨ws', later, read'⟩ := numbersBehind_isMore more ends
    refine ⟨ws ++ ws', ?_, read.append read'⟩
    rw [List.append_assoc, here, later, List.append_assoc]

theorem numbersBehind_isMore {w rest : List Char} {ts : List Term} (h : IsMore w ts)
    (ends : Ends rest) :
    ∃ ws, numbersBehind (w ++ rest) = ws ++ numbersBehind rest ∧ ReadFrom ws (numbers ts) := by
  match h, ends with
  | .nil, _ => exact ⟨[], rfl, .nil⟩
  | @IsMore.cons b w v op t ts blanks operand more, ends =>
    obtain ⟨ws, here, read⟩ := numbers_isOperand operand (ends_of_isMore more ends)
    obtain ⟨ws', later, read'⟩ := numbersBehind_isMore more ends
    have stop : ∀ c ∈ (op.symbol :: (w ++ (v ++ rest))).head?, c.isDigit = false := by
      rintro c ⟨⟩
      cases op <;> decide
    have step : numbersBehind (op.symbol :: (w ++ (v ++ rest))) =
        (Place.operand false).numbers (w ++ (v ++ rest)) := by
      cases op <;> rfl
    refine ⟨ws ++ ws', ?_, read.append read'⟩
    rw [List.append_assoc, List.cons_append, List.append_assoc, numbersBehind_blanks blanks stop,
      step, here, later, List.append_assoc]

theorem numbers_isOperand {w rest : List Char} {t : Term} (h : IsOperand w t) (ends : Ends rest) :
    ∃ ws, (Place.operand false).numbers (w ++ rest) = ws ++ numbersBehind rest ∧
      ReadFrom ws t.numbers := by
  match h, ends with
  | .plain signed even primary, ends =>
    have read := numbers_operand signed (numbers_isPrimary primary ends)
    rwa [decide_eq_false even] at read
  | .constant signed odd primary, ends =>
    have read := numbers_operand signed (numbers_isPrimary primary ends)
    rwa [decide_eq_true odd] at read
  | .subtracted signed odd primary other, ends =>
    have read := numbers_operand signed (numbers_isPrimary primary ends)
    rwa [decide_eq_true odd, if_pos rfl, negated_of_ne_number other] at read

theorem numbers_isPrimary {w rest : List Char} {t : Term} (h : IsPrimary w t) (ends : Ends rest)
    (negative : Bool) :
    ∃ ws, (Place.operand negative).numbers (w ++ rest) = ws ++ numbersBehind rest ∧
      ReadFrom ws (if negative then negated t else t).numbers := by
  match h, ends with
  | .number numeral, ends => exact numbers_constant numeral ends negative
  | .dice counted letter sided positive modified, ends =>
    obtain ⟨ws, here, read⟩ := numbers_dice counted letter sided positive modified ends negative
    exact ⟨ws, here, readFrom_signed read (by rintro _ ⟨⟩) negative⟩
  | @IsPrimary.path w written chars, ends =>
    have none : ReadFrom [] (Term.variable (String.ofList w)).numbers := .nil
    refine ⟨[], ?_, readFrom_signed none (by rintro _ ⟨⟩) negative⟩
    rw [List.cons_append, numbers_cons_of_not_isDigit _ (by decide)]
    exact numbers_path chars ends
  | @IsPrimary.group w b f inner blanks, ends =>
    obtain ⟨ws, here, read⟩ := numbers_isFormula inner (stops_of_close blanks rest).1.1
    refine ⟨ws, ?_, readFrom_signed (t := .group f) read (by rintro _ ⟨⟩) negative⟩
    have assoc : '(' :: (w ++ (b ++ [')'])) ++ rest = '(' :: (w ++ (b ++ ')' :: rest)) := by
      simp only [List.cons_append, List.append_assoc, List.nil_append]
    rw [assoc, numbers_cons_of_not_isDigit _ (by decide), ← numbers_close blanks ends, ← here]
    rfl
  | @IsPrimary.call name b w b' function f named blanks argument blanks', ends =>
    obtain ⟨ws, here, read⟩ := numbers_isFormula argument (stops_of_close blanks' rest).1.1
    refine ⟨ws, ?_, readFrom_signed (t := .call function f) read (by rintro _ ⟨⟩) negative⟩
    have assoc : name ++ (b ++ '(' :: (w ++ (b' ++ [')']))) ++ rest =
        name ++ (b ++ '(' :: (w ++ (b' ++ ')' :: rest))) := by
      simp only [List.cons_append, List.append_assoc, List.nil_append]
    rw [assoc, numbers_name named blanks, here, numbers_close blanks' ends]

end

theorem readFrom_of_isText {text : List Char} {f : Formula} (h : IsText text f) :
    ReadFrom ((Place.operand false).numbers text) (numbers f) := by
  obtain ⟨b, w, b', rfl, blanks, derived, blanks'⟩ := h
  have signed : Signs b := fun c mem => Or.inl (blanks c mem)
  have even : ¬Negates b := by
    have unsigned : b.count '-' = 0 :=
      List.count_eq_zero.2 fun mem => ne_minus_of_isBlank (blanks _ mem) rfl
    unfold Negates
    omega
  have ends : Ends b' := by
    have ended : Ends (b' ++ []) := ends_append_of_blanks blanks' (by rintro c ⟨⟩)
    rwa [List.append_nil] at ended
  have behind : numbersBehind b' = [] := by
    have nothing : numbersBehind (b' ++ []) = numbersBehind [] :=
      numbersBehind_blanks blanks' (by rintro c ⟨⟩)
    rwa [List.append_nil] at nothing
  obtain ⟨ws, found, read⟩ := numbers_isFormula derived ends
  rw [numbers_signs signed, decide_eq_false even]
  rw [behind, List.append_nil] at found
  exact found ▸ read

end Formula

open Formula

/-- A text that is read is read as its numbers are written, except that a count of dice to be kept
that 32 bits do not hold becomes one. All other numbers of the text fit their fields. -/
theorem numbers_of_parse {text : String} {f : Formula} (h : parse text = .ok f) :
    Spells ((writtenNumbers text).map (·.read)) (numbers f) ∧
      (∀ w ∈ writtenNumbers text, w.fits = true ∨ ∃ n, w = .kept n) ∧
      (Spells (writtenNumbers text) (numbers f) ↔ ∀ w ∈ writtenNumbers text, w.fits = true) := by
  have read : ReadFrom (writtenNumbers text) (numbers f) := readFrom_of_isText (isText_of_readAll h)
  obtain ⟨spelled, held, fits⟩ := read
  refine ⟨spelled, held, fun exact w mem => fits w (exact.subset mem), fun all => ?_⟩
  have unread : (writtenNumbers text).map (·.read) = (writtenNumbers text).map id :=
    List.map_congr_left fun w mem => w.read_eq_self_of_fits (all w mem)
  rw [unread, List.map_id] at spelled
  exact spelled

theorem signedNumbers_read :
    ∃ f, parse "--2 - -1D20r<3 + floor(-@mod.2 * 07) - d6k" = .ok f ∧
      Spells [.constant 2, .count 1, .faces 20, .bound 3, .constant 7, .faces 6] (numbers f) := by
  have written : writtenNumbers "--2 - -1D20r<3 + floor(-@mod.2 * 07) - d6k" =
      [.constant 2, .count 1, .faces 20, .bound 3, .constant 7, .faces 6] := by decide
  have parsed : parse "--2 - -1D20r<3 + floor(-@mod.2 * 07) - d6k" =
      .ok [.number 2, .operator .subtract,
        .group [.number 0, .operator .subtract, .dice ⟨1, 20, [.rerollBelow 3]⟩], .operator .add,
        .call .floor [.group [.number 0, .operator .subtract, .variable "mod.2"],
          .operator .multiply, .number 7],
        .operator .subtract, .dice ⟨1, 6, [.keepHighest 1]⟩] := by
    cbv
  refine ⟨_, parsed, written ▸ (numbers_of_parse parsed).2.2.2 ?_⟩
  rw [written]
  decide

/-- A count of dice to be kept that is one too great for 32 bits is read as one. -/
theorem kept_count_is_replaced :
    ∃ f, parse "2d6k4294967296" = .ok f ∧
      writtenNumbers "2d6k4294967296" = [.count 2, .faces 6, .kept 4294967296] ∧
      numbers f = [.count 2, .faces 6, .kept 1] ∧
      ¬Spells (writtenNumbers "2d6k4294967296") (numbers f) := by
  have written : writtenNumbers "2d6k4294967296" = [.count 2, .faces 6, .kept 4294967296] := by
    decide
  have parsed : parse "2d6k4294967296" = .ok [.dice ⟨2, 6, [.keepHighest 1]⟩] := by cbv
  refine ⟨_, parsed, written, rfl, fun exact => ?_⟩
  rw [written] at exact
  exact absurd (exact.subset (List.mem_cons_of_mem _ (List.mem_cons_of_mem _ List.mem_cons_self)))
    (by decide)

end Tabletop
