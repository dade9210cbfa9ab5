import Mathlib
import Tabletop.Proofs.Formula.Reading
/-!
# What is in the grammar is read

Every step of reading takes as many characters as it can. A text of the grammar is read as it was
derived if what stands behind it cannot be taken for a part of it, which `Ends` says of an operand
and `Stops` of a whole formula.
-/

namespace Tabletop.Formula

open Text (isBlank skipBlank Scanned)
open Grammar

variable {α β : Type} {m n : Nat}

/-- Reading gives the value and leaves the rest. -/
def Reads (x : Except Stop (Scanned α n)) (value : α) (rest : List Char) : Prop :=
  ∃ shorter, x = .ok ⟨value, rest, shorter⟩

theorem Reads.bind {x : Except Stop (Scanned α m)} {f : Scanned α m → Except Stop (Scanned β n)}
    {value : α} {value' : β} {rest rest' : List Char} (first : Reads x value rest)
    (second : ∀ shorter, Reads (f ⟨value, rest, shorter⟩) value' rest') :
    Reads (x >>= f) value' rest' := by
  obtain ⟨shorter, rfl⟩ := first
  exact second shorter

theorem Reads.of_bind {x : Except Stop (Scanned α m)} {f : Scanned α m → Except Stop (Scanned β n)}
    {value' : β} {rest' : List Char} (h : Reads (x >>= f) value' rest') :
    ∃ s : Scanned α m, Reads x s.value s.rest ∧ Reads (f s) value' rest' := by
  cases x with
  | error stop =>
    obtain ⟨shorter, eq⟩ := h
    cases eq
  | ok s => exact ⟨s, ⟨s.shorter, rfl⟩, h⟩

/-! ## What may stand behind a text -/

/-- The characters that may stand behind an operand. -/
def isEnd (c : Char) : Bool := isBlank c || c = ')' || (Operator.ofSymbol? c).isSome

/-- An operand before the text ends where the text starts. -/
def Ends (text : List Char) : Prop := ∀ c ∈ text.head?, isEnd c = true

/-- A formula before the text ends where the text starts, blanks aside. -/
def Stops (text : List Char) : Prop :=
  Ends text ∧ ∀ c ∈ (skipBlank text).head?, Operator.ofSymbol? c = none

theorem isBlank_eq_false_of_isPathChar {c : Char} (h : isPathChar c = true) :
    isBlank c = false := by
  simp only [isPathChar, Bool.or_eq_true, decide_eq_true_eq] at h
  rcases h with (alphanum | rfl) | rfl
  · have range : (65 ≤ c.toNat ∧ c.toNat ≤ 90 ∨ 97 ≤ c.toNat ∧ c.toNat ≤ 122) ∨
        48 ≤ c.toNat ∧ c.toNat ≤ 57 := by
      simpa [Char.isAlphanum, Char.isAlpha, Char.isUpper, Char.isLower, Char.isDigit,
        UInt32.le_iff_toNat_le] using alphanum
    by_contra blank
    simp only [isBlank, Bool.not_eq_false, Bool.or_eq_true, Bool.and_eq_true, decide_eq_true_eq,
      beq_iff_eq] at blank
    omega
  · decide
  · decide

theorem isPathChar_eq_false_of_isEnd {c : Char} (h : isEnd c = true) : isPathChar c = false := by
  rw [isEnd, Bool.or_eq_true, Bool.or_eq_true, decide_eq_true_eq] at h
  by_contra word
  rw [Bool.not_eq_false] at word
  rcases h with (blank | rfl) | operator
  · rw [isBlank_eq_false_of_isPathChar word] at blank
    cases blank
  · exact absurd word (by decide)
  · obtain ⟨op, symbol⟩ := Option.isSome_iff_exists.1 operator
    obtain rfl := Operator.ofSymbol?_eq_some_iff.1 symbol
    cases op <;> exact absurd word (by decide)

theorem isEnd_eq_false_of_isPathChar {c : Char} (h : isPathChar c = true) : isEnd c = false := by
  by_contra ending
  rw [Bool.not_eq_false] at ending
  rw [isPathChar_eq_false_of_isEnd ending] at h
  cases h

theorem isPathChar_of_isAlpha {c : Char} (h : c.isAlpha = true) : isPathChar c = true := by
  simp [isPathChar, Char.isAlphanum, h]

theorem isPathChar_of_isDigit {c : Char} (h : c.isDigit = true) : isPathChar c = true := by
  simp [isPathChar, Char.isAlphanum, h]

theorem takeWhile_append_of_stop {p : Char → Bool} {w rest : List Char}
    (all : ∀ c ∈ w, p c = true) (stop : ∀ c ∈ rest.head?, p c = false) :
    (w ++ rest).takeWhile p = w ∧ (w ++ rest).dropWhile p = rest := by
  rw [List.takeWhile_append_of_pos all, List.dropWhile_append_of_pos all]
  cases rest with
  | nil => exact ⟨List.append_nil w, rfl⟩
  | cons c rest =>
    have stopped : ¬p c = true := Bool.not_eq_true _ ▸ stop c rfl
    rw [List.takeWhile_cons_of_neg stopped, List.dropWhile_cons_of_neg stopped, List.append_nil]
    exact ⟨rfl, rfl⟩

theorem Ends.not_isPathChar {text : List Char} (h : Ends text) :
    ∀ c ∈ text.head?, isPathChar c = false :=
  fun c head => isPathChar_eq_false_of_isEnd (h c head)

theorem Ends.not_isDigit {text : List Char} (h : Ends text) :
    ∀ c ∈ text.head?, c.isDigit = false := by
  intro c head
  by_contra digit
  have word := isPathChar_of_isDigit (Bool.not_eq_false _ ▸ digit)
  rw [h.not_isPathChar c head] at word
  cases word

/-! ## Dice -/

theorem readRequiredCount_reads {w rest : List Char} {count : Nat}
    (numeral : Numeral maxCount w count) (stop : ∀ c ∈ rest.head?, c.isDigit = false) :
    Reads (readRequiredCount (w ++ rest)) count rest := by
  obtain ⟨taken, left⟩ := takeWhile_append_of_stop numeral.digits.all stop
  have counted := (countUpTo?_eq_some_iff numeral.digits.all).2 numeral
  have written : ¬w.isEmpty = true := by
    rw [List.isEmpty_iff]
    exact numeral.digits.written
  unfold readRequiredCount
  simp only [taken, left, if_neg written, counted]
  exact ⟨_, rfl⟩

theorem digits_of_keepCount {w : List Char} {count : Nat} (h : KeepCount w count) :
    ∀ c ∈ w, c.isDigit = true := by
  rcases h with ⟨rfl, -⟩ | ⟨written, -⟩
  · exact List.forall_mem_nil _
  · exact written.all

theorem readOptionalCount_reads {w rest : List Char} {count : Nat} (keeps : KeepCount w count)
    (stop : ∀ c ∈ rest.head?, c.isDigit = false) :
    ∃ shorter, readOptionalCount (w ++ rest) = ⟨count, rest, shorter⟩ := by
  obtain ⟨taken, left⟩ := takeWhile_append_of_stop (digits_of_keepCount keeps) stop
  have counted := (getD_countUpTo?_eq_iff (digits_of_keepCount keeps)).2 keeps
  refine ⟨by rw [List.length_append]; omega, ?_⟩
  unfold readOptionalCount
  simp only [taken, left, counted]

/-- What stands behind a modifier is neither a digit, which would belong to its count, nor a letter
that would belong to its name. -/
def EndsModifier (text : List Char) : Prop :=
  ∀ c ∈ text.head?, c.isDigit = false ∧ c ≠ 'h' ∧ c ≠ 'l'

theorem Ends.endsModifier {text : List Char} (h : Ends text) : EndsModifier text := by
  refine fun c head => ⟨h.not_isDigit c head, ?_, ?_⟩ <;> rintro rfl
  · exact absurd (h.not_isPathChar _ head) (by decide)
  · exact absurd (h.not_isPathChar _ head) (by decide)

theorem endsModifier_of_areModifiers {v rest : List Char} {ms : List DieModifier}
    (h : AreModifiers v ms) (ends : Ends rest) : EndsModifier (v ++ rest) := by
  cases h with
  | nil => exact ends.endsModifier
  | cons first more =>
    intro c head
    cases first <;> cases head <;> decide

theorem readModifier?_keep {text : List Char} (other : ∀ c ∈ text.head?, c ≠ 'h' ∧ c ≠ 'l') :
    readModifier? ('k' :: text) = .ok (some ⟨.keepHighest (readOptionalCount text).value,
      (readOptionalCount text).rest, (readOptionalCount text).shorter⟩) := by
  rw [readModifier?]
  · rfl
  · rintro text rfl
    exact (other 'h' rfl).1 rfl
  · rintro text rfl
    exact (other 'l' rfl).2 rfl

theorem readModifier?_reads {w rest : List Char} {modifier : DieModifier}
    (h : IsModifier w modifier) (ends : EndsModifier rest) :
    ∃ shorter, readModifier? (w ++ rest) = .ok (some ⟨modifier, rest, shorter⟩) := by
  have stop : ∀ c ∈ rest.head?, c.isDigit = false := fun c head => (ends c head).1
  cases h with
  | rerollBelow numeral =>
    obtain ⟨shorter, eq⟩ := readRequiredCount_reads numeral stop
    refine ⟨Nat.lt_succ_of_lt shorter, ?_⟩
    simp only [List.cons_append, readModifier?, eq]
    rfl
  | keepHighest keeps =>
    obtain ⟨shorter, eq⟩ := readOptionalCount_reads keeps stop
    refine ⟨Nat.lt_succ_of_lt shorter, ?_⟩
    simp only [List.cons_append, readModifier?, eq]
    rfl
  | keepLowest keeps =>
    obtain ⟨shorter, eq⟩ := readOptionalCount_reads keeps stop
    refine ⟨Nat.lt_succ_of_lt shorter, ?_⟩
    simp only [List.cons_append, readModifier?, eq]
    rfl
  | @keep w _ keeps =>
    obtain ⟨shorter, eq⟩ := readOptionalCount_reads keeps stop
    have other : ∀ c ∈ (w ++ rest).head?, c ≠ 'h' ∧ c ≠ 'l' := by
      cases w with
      | nil => exact fun c head => (ends c head).2
      | cons d w =>
        rintro c ⟨⟩
        have digit := digits_of_keepCount keeps d List.mem_cons_self
        constructor <;> rintro rfl <;> exact absurd digit (by decide)
    refine ⟨shorter, (readModifier?_keep other).trans ?_⟩
    simp only [eq]
  | minimum numeral =>
    obtain ⟨shorter, eq⟩ := readRequiredCount_reads numeral stop
    refine ⟨Nat.lt_succ_of_lt (Nat.lt_succ_of_lt shorter), ?_⟩
    simp only [List.cons_append, readModifier?, eq]
    rfl

theorem readModifier?_of_ends {text : List Char} (ends : Ends text) :
    readModifier? text = .ok none := by
  unfold readModifier?
  split
  case h_6 => rfl
  all_goals exact absurd (ends _ rfl) (by decide)

theorem readModifiers_reads {w rest : List Char} {ms : List DieModifier} (h : AreModifiers w ms)
    (ends : Ends rest) : Reads (readModifiers (w ++ rest)) ms rest := by
  induction h with
  | nil =>
    rw [List.nil_append, readModifiers, readModifier?_of_ends ends]
    exact ⟨_, rfl⟩
  | cons first more ih =>
    rw [List.append_assoc, readModifiers]
    obtain ⟨shorter, eq⟩ := readModifier?_reads first (endsModifier_of_areModifiers more ends)
    rw [eq]
    exact ih.bind fun _ => ⟨_, rfl⟩

theorem readDice_reads {sides v rest : List Char} {faces : Nat} {ms : List DieModifier}
    (number : Nat) (sided : Numeral maxCount sides faces) (positive : 0 < faces)
    (modified : AreModifiers v ms) (ends : Ends rest) :
    Reads (readDice number (sides ++ (v ++ rest))) (.dice ⟨number, faces, ms⟩) rest := by
  have stop : ∀ c ∈ (v ++ rest).head?, c.isDigit = false :=
    fun c head => (endsModifier_of_areModifiers modified ends c head).1
  obtain ⟨taken, left⟩ := takeWhile_append_of_stop sided.digits.all stop
  have counted := (countUpTo?_eq_some_iff sided.digits.all).2 sided
  have modifiers :
      Reads (readModifiers ((sides ++ (v ++ rest)).dropWhile Char.isDigit)) ms rest := by
    rw [left]
    exact readModifiers_reads modified ends
  unfold readDice
  simp only [taken, counted, Option.filter_some, positive, decide_true, if_true]
  exact modifiers.bind fun _ => ⟨_, rfl⟩

theorem startsDice_of_letter {d : Char} (letter : d = 'd' ∨ d = 'D') {sides : List Char}
    (sided : Digits sides) (rest : List Char) : startsDice (d :: (sides ++ rest)) = true := by
  obtain ⟨written, digits⟩ := sided
  obtain ⟨c, sides, rfl⟩ := List.exists_cons_of_ne_nil written
  have digit := digits c List.mem_cons_self
  rw [List.cons_append, startsDice, digit, Bool.and_true, Bool.or_eq_true, decide_eq_true_eq,
    decide_eq_true_eq]
  exact letter

theorem startsDice_of_ends {text : List Char} (ends : Ends text) : ¬startsDice text = true := by
  intro dice
  obtain ⟨d, eq, letter⟩ := startsDice_eq_true dice
  have word : isPathChar d = false := ends.not_isPathChar d (by rw [eq]; rfl)
  rcases letter with rfl | rfl <;> exact absurd word (by decide)

/-! ## Operands -/

theorem readNumber_reads {c : Char} {w rest : List Char} {number : Nat}
    (numeral : Numeral maxConstant (c :: w) number) (ends : Ends rest) :
    Reads (readNumber c (w ++ rest)) (.number number) rest := by
  have digits := (List.forall_mem_cons.1 numeral.digits.all).2
  obtain ⟨taken, left⟩ := takeWhile_append_of_stop digits ends.not_isDigit
  have counted := (countUpTo?_eq_some_iff numeral.digits.all).2 numeral
  unfold readNumber
  simp only [taken, left, if_neg (startsDice_of_ends ends), counted]
  refine ⟨?_, rfl⟩
  rw [List.length_append]
  omega

theorem readNumber_reads_dice {c d : Char} {w sides v rest : List Char} {number faces : Nat}
    {ms : List DieModifier} (numeral : Numeral maxDice (c :: w) number)
    (letter : d = 'd' ∨ d = 'D') (sided : Numeral maxCount sides faces) (positive : 0 < faces)
    (modified : AreModifiers v ms) (ends : Ends rest) :
    Reads (readNumber c (w ++ d :: (sides ++ (v ++ rest)))) (.dice ⟨number, faces, ms⟩) rest := by
  have digits := (List.forall_mem_cons.1 numeral.digits.all).2
  have stop : ∀ e ∈ (d :: (sides ++ (v ++ rest))).head?, e.isDigit = false := by
    rintro e ⟨⟩
    rcases letter with rfl | rfl <;> decide
  obtain ⟨taken, left⟩ := takeWhile_append_of_stop digits stop
  have counted := (countUpTo?_eq_some_iff numeral.digits.all).2 numeral
  have dice : Reads (readDice number
      ((w ++ d :: (sides ++ (v ++ rest))).dropWhile Char.isDigit).tail)
      (.dice ⟨number, faces, ms⟩) rest := by
    rw [left]
    exact readDice_reads number sided positive modified ends
  unfold readNumber
  simp only [taken, left, if_pos (startsDice_of_letter letter sided.digits _), counted]
  exact dice.bind fun _ => ⟨_, rfl⟩

theorem readVariable_reads {w rest : List Char} (written : w ≠ [])
    (chars : ∀ c ∈ w, isPathChar c = true) (ends : Ends rest) :
    Reads (readVariable (w ++ rest)) (.variable (String.ofList w)) rest := by
  obtain ⟨taken, left⟩ := takeWhile_append_of_stop chars ends.not_isPathChar
  unfold readVariable
  simp only [taken, left, List.isEmpty_iff, if_neg written]
  exact ⟨_, rfl⟩

theorem skipBlank_append {b : List Char} (blanks : Blanks b) (text : List Char) :
    skipBlank (b ++ text) = skipBlank text := by
  rw [Text.skipBlank_eq_dropWhile, Text.skipBlank_eq_dropWhile,
    List.dropWhile_append_of_pos blanks]

theorem skipBlank_cons {c : Char} (h : isBlank c = false) (text : List Char) :
    skipBlank (c :: text) = c :: text := by
  rw [skipBlank, h, if_neg Bool.false_ne_true]

theorem expect_reads {c : Char} {b : List Char} (visible : isBlank c = false) (blanks : Blanks b)
    (rest : List Char) : Reads (expect c (b ++ c :: rest)) () rest := by
  have found : skipBlank (b ++ c :: rest) = c :: rest := by
    rw [skipBlank_append blanks, skipBlank_cons visible]
  unfold expect
  split
  · next ended => exact absurd (ended.symm.trans found) (List.cons_ne_nil _ _).symm
  · next d rest' found' =>
    obtain ⟨rfl, rfl⟩ := List.cons.inj (found'.symm.trans found)
    rw [if_pos rfl]
    exact ⟨_, rfl⟩

theorem name_letters (function : MathFunction) :
    ∃ c cs, function.name.toList = c :: cs ∧ c ≠ 'd' ∧ ∀ d ∈ c :: cs, d.isAlpha = true := by
  cases function with
  | floor => exact ⟨'f', ['l', 'o', 'o', 'r'], rfl, by decide, by simp⟩
  | ceil => exact ⟨'c', ['e', 'i', 'l'], rfl, by decide, by simp⟩
  | round => exact ⟨'r', ['o', 'u', 'n', 'd'], rfl, by decide, by simp⟩
  | abs => exact ⟨'a', ['b', 's'], rfl, by decide, by simp⟩

theorem letters_of_named {name : List Char} {function : MathFunction}
    (named : name.map Char.toLower = function.name.toList) :
    ∃ c cs, name = c :: cs ∧ c ≠ 'd' ∧ c ≠ 'D' ∧ ∀ d ∈ c :: cs, d.isAlpha = true := by
  obtain ⟨l, ls, eq, other, letters⟩ := name_letters function
  rw [eq] at named
  obtain ⟨c, cs, rfl, rfl, -⟩ := List.map_eq_cons_iff.1 named
  refine ⟨c, cs, rfl, ?_, ?_, fun d mem => ?_⟩
  · rintro rfl
    exact other rfl
  · rintro rfl
    exact other rfl
  · rw [← Char.isAlpha_toLower_eq_isAlpha]
    exact letters _ (named ▸ List.mem_map_of_mem mem)

theorem readFunctionName_reads {c : Char} {cs b : List Char} {function : MathFunction}
    (named : (c :: cs).map Char.toLower = function.name.toList)
    (letters : ∀ d ∈ cs, d.isAlpha = true) (blanks : Blanks b) (rest : List Char) :
    Reads (readFunctionName c (cs ++ (b ++ '(' :: rest))) function rest := by
  have stop : ∀ d ∈ (b ++ '(' :: rest).head?, d.isAlpha = false := by
    intro d head
    by_contra letter
    have word := isPathChar_of_isAlpha (Bool.not_eq_false _ ▸ letter)
    cases b with
    | nil => cases head; exact absurd word (by decide)
    | cons e b =>
      cases head
      have blank := blanks _ List.mem_cons_self
      rw [isBlank_eq_false_of_isPathChar word] at blank
      cases blank
  obtain ⟨taken, left⟩ := takeWhile_append_of_stop letters stop
  have known :
      MathFunction.ofName? (String.ofList ((c :: cs).map Char.toLower)) = some function := by
    rw [named, String.ofList_toList]
    exact MathFunction.ofName?_eq_some_iff.2 rfl
  have paren : Reads (expect '(' ((cs ++ (b ++ '(' :: rest)).dropWhile Char.isAlpha)) () rest := by
    rw [left]
    exact expect_reads (by decide) blanks rest
  unfold readFunctionName
  simp only [taken, known]
  exact paren.bind fun _ => ⟨_, rfl⟩

theorem exists_head_of_isPrimary {w : List Char} {t : Term} (h : IsPrimary w t) :
    ∃ c v, w = c :: v ∧ isEnd c = false := by
  have digit_head {c : Char} {v : List Char} (digits : Digits (c :: v)) : isEnd c = false :=
    isEnd_eq_false_of_isPathChar (isPathChar_of_isDigit (digits.all c List.mem_cons_self))
  cases h with
  | @number w _ numeral =>
    obtain ⟨c, v, rfl⟩ := List.exists_cons_of_ne_nil numeral.digits.written
    exact ⟨c, v, rfl, digit_head numeral.digits⟩
  | dice counted letter _ _ _ =>
    rcases counted with ⟨rfl, -⟩ | numeral
    · exact ⟨_, _, rfl, by rcases letter with rfl | rfl <;> decide⟩
    · obtain ⟨c, v, rfl⟩ := List.exists_cons_of_ne_nil numeral.digits.written
      exact ⟨c, _, rfl, digit_head numeral.digits⟩
  | path _ _ => exact ⟨'@', _, rfl, by decide⟩
  | group _ _ => exact ⟨'(', _, rfl, by decide⟩
  | call named _ _ _ =>
    obtain ⟨c, cs, rfl, -, -, letters⟩ := letters_of_named named
    have letter := isPathChar_of_isAlpha (letters c List.mem_cons_self)
    exact ⟨c, _, rfl, isEnd_eq_false_of_isPathChar letter⟩

theorem readSigns_append {signs : List Char} (signed : Signs signs) (negative : Bool) {c : Char}
    (operand : isEnd c = false) (text : List Char) :
    readSigns negative (signs ++ c :: text) = (negative ^^ decide (Negates signs), c :: text) := by
  induction signs generalizing negative with
  | nil =>
    have visible : ¬(isBlank c || decide (c = '+')) = true := by
      intro skipped
      rw [Bool.or_eq_true, decide_eq_true_eq] at skipped
      rcases skipped with blank | rfl
      · simp [isEnd, blank] at operand
      · exact absurd operand (by decide)
    have unsigned : c ≠ '-' := by
      rintro rfl
      exact absurd operand (by decide)
    rw [List.nil_append, readSigns, if_neg visible, if_neg unsigned]
    exact congrArg (·, c :: text) (Bool.xor_false _).symm
  | cons s signs ih =>
    obtain ⟨skipped, others⟩ := List.forall_mem_cons.1 signed
    rw [List.cons_append, readSigns]
    by_cases minus : s = '-'
    · subst minus
      rw [if_neg (by decide), if_pos rfl, ih others, decide_eq_decide.2 negates_minus_cons,
        decide_not, Bool.not_xor, Bool.xor_not]
    · have other : (isBlank s || decide (s = '+')) = true := by
        rw [Bool.or_eq_true, decide_eq_true_eq]
        exact skipped.imp_right fun sign => sign.resolve_right minus
      rw [if_pos other, ih others, decide_eq_decide.2 (negates_cons_of_ne minus)]

/-! ## Formulas -/

theorem readOperand_reads_iff {text rest : List Char} {t : Term} :
    Reads (readOperand text) t rest ↔
      ∃ u, Reads (readPrimary (readSigns false text).2) u rest ∧
        t = if (readSigns false text).1 then negated u else u := by
  rw [readOperand]
  constructor
  · intro h
    obtain ⟨s, primary, shorter, eq⟩ := h.of_bind
    cases eq
    exact ⟨s.value, primary, rfl⟩
  · rintro ⟨u, primary, rfl⟩
    exact primary.bind fun _ => ⟨_, rfl⟩

theorem readOperand_reads_of_signs {signs w rest : List Char} {t : Term} (signed : Signs signs)
    (head : ∃ c v, w = c :: v ∧ isEnd c = false)
    (primary : Reads (readPrimary (w ++ rest)) t rest) :
    Reads (readOperand (signs ++ w ++ rest)) (if Negates signs then negated t else t) rest := by
  obtain ⟨c, v, rfl, operand⟩ := head
  have skipped := readSigns_append signed false operand (v ++ rest)
  rw [List.append_assoc, readOperand_reads_iff, List.cons_append, skipped]
  refine ⟨t, primary, ?_⟩
  simp only [Bool.false_xor, decide_eq_true_eq]

theorem readPrimary_reads_dice {count sides v rest : List Char} {d : Char} {number faces : Nat}
    {ms : List DieModifier} (counted : DiceCount count number) (letter : d = 'd' ∨ d = 'D')
    (sided : Numeral maxCount sides faces) (positive : 0 < faces) (modified : AreModifiers v ms)
    (ends : Ends rest) :
    Reads (readPrimary (count ++ d :: (sides ++ v) ++ rest)) (.dice ⟨number, faces, ms⟩) rest := by
  rw [List.append_assoc, List.cons_append, List.append_assoc]
  rcases counted with ⟨rfl, rfl⟩ | numeral
  · have other : ¬d.isDigit = true := by rcases letter with rfl | rfl <;> decide
    rw [List.nil_append, readPrimary, if_neg other,
      if_pos (startsDice_of_letter letter sided.digits _)]
    exact readDice_reads 1 sided positive modified ends
  · obtain ⟨c, w, rfl⟩ := List.exists_cons_of_ne_nil numeral.digits.written
    rw [List.cons_append, readPrimary, if_pos (numeral.digits.all c List.mem_cons_self)]
    exact readNumber_reads_dice numeral letter sided positive modified ends

theorem negated_of_ne_number {t : Term} (other : ∀ n, t ≠ .number n) :
    negated t = .group [.number 0, .operator .subtract, t] := by
  unfold negated
  split
  · next n => exact absurd rfl (other n)
  · rfl

theorem isBlank_symbol (op : Operator) : isBlank op.symbol = false := by cases op <;> decide

theorem ends_append_of_blanks {b rest : List Char} (blanks : Blanks b) (ends : Ends rest) :
    Ends (b ++ rest) := by
  cases b with
  | nil => exact ends
  | cons c b =>
    rintro _ ⟨⟩
    rw [isEnd, blanks c List.mem_cons_self, Bool.true_or, Bool.true_or]

theorem ends_of_isMore {v rest : List Char} {ts : List Term} (more : IsMore v ts)
    (ends : Ends rest) : Ends (v ++ rest) := by
  cases more with
  | nil => exact ends
  | @cons b _ _ op _ _ blanks _ _ =>
    rw [List.append_assoc]
    refine ends_append_of_blanks blanks ?_
    rintro _ ⟨⟩
    cases op <;> decide

theorem stops_of_close {b : List Char} (blanks : Blanks b) (rest : List Char) :
    Stops (b ++ ')' :: rest) ∧ skipBlank (b ++ ')' :: rest) = ')' :: rest := by
  have found : skipBlank (b ++ ')' :: rest) = ')' :: rest := by
    rw [skipBlank_append blanks, skipBlank_cons (by decide)]
  refine ⟨⟨ends_append_of_blanks blanks ?_, ?_⟩, found⟩
  · rintro _ ⟨⟩
    decide
  · rw [found]
    rintro _ ⟨⟩
    rfl

-- By recursion on the derivations. What a formula leaves starts behind the blanks after it, since
-- the reader skips them in search of one more operator.
mutual

theorem readFormula_reads {w rest : List Char} {f : Formula} (h : IsFormula w f)
    (stops : Stops rest) : Reads (readFormula (w ++ rest)) f (skipBlank rest) := by
  match h with
  | .intro first more =>
    rw [List.append_assoc, readFormula]
    refine (readOperand_reads first (ends_of_isMore more stops.1)).bind fun _ => ?_
    exact (readMore_reads more stops).bind fun _ => ⟨_, rfl⟩

theorem readMore_reads {w rest : List Char} {ts : List Term} (h : IsMore w ts)
    (stops : Stops rest) : Reads (readMore (w ++ rest)) ts (skipBlank rest) := by
  match h with
  | .nil =>
    refine readMore_of_stop fun c tail found => stops.2 c ?_
    rw [found]
    rfl
  | @IsMore.cons b w v op t ts blanks operand more =>
    have found : skipBlank (b ++ op.symbol :: (w ++ v) ++ rest) =
        op.symbol :: (w ++ (v ++ rest)) := by
      rw [List.append_assoc, skipBlank_append blanks, List.cons_append,
        skipBlank_cons (isBlank_symbol op), List.append_assoc]
    obtain ⟨shorter, eq⟩ := readMore_of_operator found
    rw [eq]
    refine (readOperand_reads operand (ends_of_isMore more stops.1)).bind fun _ => ?_
    exact (readMore_reads more stops).bind fun _ => ⟨_, rfl⟩

theorem readOperand_reads {w rest : List Char} {t : Term} (h : IsOperand w t) (ends : Ends rest) :
    Reads (readOperand (w ++ rest)) t rest := by
  match h with
  | .plain signed even primary =>
    have read := readOperand_reads_of_signs signed (exists_head_of_isPrimary primary)
      (readPrimary_reads primary ends)
    rwa [if_neg even] at read
  | .constant signed odd primary =>
    have read := readOperand_reads_of_signs signed (exists_head_of_isPrimary primary)
      (readPrimary_reads primary ends)
    rwa [if_pos odd] at read
  | .subtracted signed odd primary other =>
    have read := readOperand_reads_of_signs signed (exists_head_of_isPrimary primary)
      (readPrimary_reads primary ends)
    rwa [if_pos odd, negated_of_ne_number other] at read

theorem readPrimary_reads {w rest : List Char} {t : Term} (h : IsPrimary w t) (ends : Ends rest) :
    Reads (readPrimary (w ++ rest)) t rest := by
  match h with
  | .number numeral =>
    obtain ⟨c, w, rfl⟩ := List.exists_cons_of_ne_nil numeral.digits.written
    rw [List.cons_append, readPrimary, if_pos (numeral.digits.all c List.mem_cons_self)]
    exact readNumber_reads numeral ends
  | .dice counted letter sided positive modified =>
    exact readPrimary_reads_dice counted letter sided positive modified ends
  | .path written chars =>
    rw [List.cons_append, readPrimary, if_neg (by decide),
      if_neg (startsDice_of_ne (by decide) (by decide) _), if_pos rfl]
    exact readVariable_reads written chars ends
  | @IsPrimary.group w b f inner blanks =>
    obtain ⟨stops, found⟩ := stops_of_close blanks rest
    have formula := readFormula_reads inner stops
    rw [found] at formula
    have assoc : '(' :: (w ++ (b ++ [')'])) ++ rest = '(' :: (w ++ (b ++ ')' :: rest)) := by
      simp only [List.cons_append, List.append_assoc, List.nil_append]
    rw [assoc, readPrimary_group]
    refine formula.bind fun _ => ?_
    exact (expect_reads (by decide) (List.forall_mem_nil _) rest).bind fun _ => ⟨_, rfl⟩
  | @IsPrimary.call name b w b' function f named blanks argument blanks' =>
    obtain ⟨c, cs, rfl, other, other', letters⟩ := letters_of_named named
    obtain ⟨letter, letters⟩ := List.forall_mem_cons.1 letters
    obtain ⟨stops, found⟩ := stops_of_close blanks' rest
    have formula := readFormula_reads argument stops
    rw [found] at formula
    have assoc : c :: cs ++ (b ++ '(' :: (w ++ (b' ++ [')']))) ++ rest =
        c :: (cs ++ (b ++ '(' :: (w ++ (b' ++ ')' :: rest)))) := by
      simp only [List.cons_append, List.append_assoc, List.nil_append]
    rw [assoc, readPrimary_call letter _ (startsDice_of_ne other other' _)]
    refine (readFunctionName_reads named letters blanks _).bind fun _ => ?_
    refine formula.bind fun _ => ?_
    exact (expect_reads (by decide) (List.forall_mem_nil _) rest).bind fun _ => ⟨_, rfl⟩

end

end Tabletop.Formula
