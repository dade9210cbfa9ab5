import Mathlib
import Tabletop.Proofs.Formula.Grammar
/-!
# What is read is in the grammar

A step of reading that succeeds has taken a text which its rule of the grammar derives. One that
stops at some place has come there by a text which its rule allows to be continued: the reader never
goes on behind a character that nothing could follow. `Grounded` says both, and is carried from the
steps to the whole reader.
-/

namespace Tabletop.Formula

open Text (isBlank skipBlank Scanned)
open Grammar

variable {α β : Type} {m n : Nat}

/-- What came of a step of reading is borne out by a rule of the grammar. -/
def Grounded (G : List Char → α → Prop) (text : List Char) : Except Stop (Scanned α n) → Prop
  | .ok s => ∃ taken, text = taken ++ s.rest ∧ G taken s.value
  | .error (.unexpected rest) =>
    ∃ taken, text = taken ++ rest ∧ ∃ more value, G (taken ++ more) value
  | .error _ => True

namespace Grounded

variable {G : List Char → α → Prop} {H : List Char → β → Prop} {text : List Char}

theorem done {value : α} {rest : List Char} {shorter : rest.length < n} (h : G [] value) :
    Grounded G rest (.ok ⟨value, rest, shorter⟩) := ⟨[], rfl, h⟩

/-- The text before the place where a step starts belongs to what is read. -/
theorem behind {x : Except Stop (Scanned α n)} (taken : List Char) {rest : List Char}
    (whole : text = taken ++ rest) (h : Grounded (fun w value => G (taken ++ w) value) rest x) :
    Grounded G text x := by
  subst whole
  cases x with
  | ok s =>
    obtain ⟨w, rfl, derived⟩ := h
    exact ⟨taken ++ w, (List.append_assoc _ _ _).symm, derived⟩
  | error stop =>
    cases stop with
    | unexpected rest =>
      obtain ⟨w, rfl, more, value, derived⟩ := h
      refine ⟨taken ++ w, (List.append_assoc _ _ _).symm, more, value, ?_⟩
      rwa [List.append_assoc]
    | invalidDice _ => trivial
    | unknownFunction _ => trivial

/-- One step after another. A text at which the first step stops can be continued over the second
one, because something can always follow what the first step reads. -/
theorem bind {x : Except Stop (Scanned α m)} {f : Scanned α m → Except Stop (Scanned β n)}
    (first : Grounded G text x)
    (second : ∀ s taken, G taken s.value → Grounded (fun w => H (taken ++ w)) s.rest (f s))
    (follow : ∀ w value, G w value → ∃ more value', H (w ++ more) value') :
    Grounded H text (x >>= f) := by
  cases x with
  | ok s =>
    obtain ⟨taken, rfl, derived⟩ := first
    exact (second s taken derived).behind taken rfl
  | error stop =>
    cases stop with
    | unexpected rest =>
      -- the first step stops: its text can be completed, and then the second one's
      obtain ⟨taken, rfl, more, value, derived⟩ := first
      obtain ⟨more', value', derived'⟩ := follow _ _ derived
      exact ⟨taken, rfl, more ++ more', value', by rwa [List.append_assoc] at derived'⟩
    | invalidDice _ => trivial
    | unknownFunction _ => trivial

/-- A step after which nothing more is read. -/
theorem conclude {x : Except Stop (Scanned α m)} {f : Scanned α m → Except Stop (Scanned β n)}
    (first : Grounded G text x) (result : α → β)
    (last : ∀ s, ∃ shorter, f s = .ok ⟨result s.value, s.rest, shorter⟩)
    (derive : ∀ w value, G w value → H w (result value)) : Grounded H text (x >>= f) := by
  refine first.bind (fun s taken derived => ?_) fun w value derived => ⟨[], result value, ?_⟩
  · obtain ⟨shorter, eq⟩ := last s
    rw [eq]
    exact done (by rw [List.append_nil]; exact derive _ _ derived)
  · rw [List.append_nil]
    exact derive _ _ derived

end Grounded

/-! ## Characters -/

theorem exists_blanks (text : List Char) : ∃ b, Blanks b ∧ text = b ++ skipBlank text := by
  refine ⟨text.takeWhile isBlank, fun c mem => List.mem_takeWhile_imp mem, ?_⟩
  rw [Text.skipBlank_eq_dropWhile, List.takeWhile_append_dropWhile]

theorem countUpTo?_eq_some_iff {limit : Nat} {w : List Char} {n : Nat}
    (digits : ∀ c ∈ w, c.isDigit = true) : countUpTo? limit w = some n ↔ Numeral limit w n := by
  unfold countUpTo?
  rw [Option.ite_none_right_eq_some]
  simp only [Bool.and_eq_true, Bool.not_eq_true', List.isEmpty_eq_false_iff, decide_eq_true_eq,
    Option.some.injEq]
  constructor
  · rintro ⟨⟨written, bound⟩, rfl⟩
    exact ⟨⟨written, digits⟩, rfl, bound⟩
  · rintro ⟨⟨written, -⟩, rfl, bound⟩
    exact ⟨⟨written, bound⟩, rfl⟩

theorem getD_countUpTo?_eq_iff {w : List Char} {n : Nat}
    (digits : ∀ c ∈ w, c.isDigit = true) :
    (countUpTo? maxCount w).getD 1 = n ↔ KeepCount w n := by
  by_cases unwritten : w = []
  · subst unwritten
    constructor
    · rintro rfl
      exact Or.inl ⟨rfl, rfl⟩
    · rintro (⟨-, rfl⟩ | ⟨⟨written, -⟩, -⟩)
      · rfl
      · exact absurd rfl written
  · have value : (countUpTo? maxCount w).getD 1 =
        if digitsValue w ≤ maxCount then digitsValue w else 1 := by
      unfold countUpTo?
      by_cases bound : digitsValue w ≤ maxCount
      · simp [unwritten, bound]
      · simp [bound]
    rw [value]
    constructor
    · rintro rfl
      exact Or.inr ⟨⟨unwritten, digits⟩, rfl⟩
    · rintro (⟨written, -⟩ | ⟨-, rfl⟩)
      · exact absurd written unwritten
      · rfl

theorem numeral_zero (limit : Nat) : Numeral limit ['0'] 0 :=
  ⟨⟨List.cons_ne_nil _ _, by simp⟩, rfl, Nat.zero_le _⟩

theorem startsDice_eq_true {text : List Char} (h : startsDice text = true) :
    ∃ c, text = c :: text.tail ∧ (c = 'd' ∨ c = 'D') := by
  unfold startsDice at h
  split at h
  · next c d rest =>
    rw [Bool.and_eq_true, Bool.or_eq_true, decide_eq_true_eq, decide_eq_true_eq] at h
    exact ⟨c, rfl, h.1⟩
  · cases h

/-! ## Dice -/

theorem readRequiredCount_grounded (text : List Char) :
    Grounded (Numeral maxCount) text (readRequiredCount text) := by
  unfold readRequiredCount
  have whole : text = text.takeWhile Char.isDigit ++ text.dropWhile Char.isDigit :=
    List.takeWhile_append_dropWhile.symm
  by_cases unwritten : (text.takeWhile Char.isDigit).isEmpty = true
  · rw [if_pos unwritten]
    rw [List.isEmpty_iff.1 unwritten] at whole
    exact ⟨[], whole, ['0'], 0, numeral_zero _⟩
  · rw [if_neg unwritten]
    split
    · next n counted =>
      have numeral := (countUpTo?_eq_some_iff fun _ => List.mem_takeWhile_imp).1 counted
      exact ⟨_, whole, numeral⟩
    · trivial

theorem readOptionalCount_grounded (text : List Char) :
    Grounded KeepCount text (.ok (readOptionalCount text)) := by
  have keeps := (getD_countUpTo?_eq_iff (w := text.takeWhile Char.isDigit)
    fun _ => List.mem_takeWhile_imp).1 rfl
  exact ⟨text.takeWhile Char.isDigit, List.takeWhile_append_dropWhile.symm, keeps⟩

theorem keep_grounded {rule : Nat → DieModifier} (lead : List Char) {rest : List Char}
    (derive : ∀ w count, KeepCount w count → IsModifier (lead ++ w) (rule count))
    (shorter : (readOptionalCount rest).rest.length < n) : Grounded IsModifier (lead ++ rest)
      (.ok ⟨rule (readOptionalCount rest).value, (readOptionalCount rest).rest, shorter⟩) := by
  obtain ⟨w, whole, keeps⟩ := readOptionalCount_grounded rest
  exact ⟨lead ++ w, by rw [List.append_assoc, ← whole], derive _ _ keeps⟩

theorem readModifier?_cases (text : List Char) :
    readModifier? text = .ok none ∨
      ∃ x, readModifier? text = some <$> x ∧ Grounded IsModifier text x := by
  unfold readModifier?
  split
  · next rest =>
    refine Or.inr ⟨do
      let count ← readRequiredCount rest
      return ⟨.rerollBelow count.value, count.rest, Nat.lt_succ_of_lt count.shorter⟩, ?_, ?_⟩
    · cases readRequiredCount rest <;> rfl
    · exact ((readRequiredCount_grounded rest).conclude _ (fun _ => ⟨_, rfl⟩)
        fun _ _ => .rerollBelow).behind ['r', '<'] rfl
  · exact Or.inr ⟨_, rfl, keep_grounded ['k', 'h'] (fun _ _ => .keepHighest) _⟩
  · exact Or.inr ⟨_, rfl, keep_grounded ['k', 'l'] (fun _ _ => .keepLowest) _⟩
  · next rest =>
    refine Or.inr ⟨do
      let count ← readRequiredCount rest
      return ⟨.minimum count.value, count.rest,
        Nat.lt_succ_of_lt (Nat.lt_succ_of_lt count.shorter)⟩, ?_, ?_⟩
    · cases readRequiredCount rest <;> rfl
    · exact ((readRequiredCount_grounded rest).conclude _ (fun _ => ⟨_, rfl⟩)
        fun _ _ => .minimum).behind ['m', 'i', 'n'] rfl
  · exact Or.inr ⟨_, rfl, keep_grounded ['k'] (fun _ _ => .keep) _⟩
  · exact Or.inl rfl

theorem readModifiers_grounded (text : List Char) :
    Grounded AreModifiers text (readModifiers text) := by
  induction text using readModifiers.induct with
  | case1 text ih =>
    rw [readModifiers]
    rcases readModifier?_cases text with stop | ⟨x, read, grounded⟩
    · rw [stop]
      exact Grounded.done .nil
    · rw [read, bind_map_left]
      refine grounded.bind (fun s w derived => ?_) fun w m derived => ⟨[], [m], .cons derived .nil⟩
      exact (ih s).conclude _ (fun _ => ⟨_, rfl⟩) fun _ _ => .cons derived

theorem readDice_grounded {count : List Char} {number : Nat} {d : Char}
    (counted : DiceCount count number) (letter : d = 'd' ∨ d = 'D') (text : List Char) :
    Grounded (fun w t => IsPrimary (count ++ d :: w) t) text (readDice number text) := by
  unfold readDice
  dsimp only
  have whole : text = text.takeWhile Char.isDigit ++ text.dropWhile Char.isDigit :=
    List.takeWhile_append_dropWhile.symm
  split
  · trivial
  · next faces sides =>
    obtain ⟨sides, positive⟩ := Option.filter_eq_some_iff.1 sides
    have sided := (countUpTo?_eq_some_iff fun _ => List.mem_takeWhile_imp).1 sides
    refine Grounded.behind _ whole ((readModifiers_grounded _).conclude
      (fun modifiers => .dice ⟨number, faces, modifiers⟩) (fun _ => ⟨_, rfl⟩) ?_)
    exact fun _ _ => .dice counted letter sided (of_decide_eq_true positive)

/-! ## Operands -/

theorem readNumber_grounded {first : Char} (digit : first.isDigit = true) (text : List Char) :
    Grounded IsPrimary (first :: text) (readNumber first text) := by
  unfold readNumber
  have whole : first :: text =
      (first :: text.takeWhile Char.isDigit) ++ text.dropWhile Char.isDigit :=
    congrArg (first :: ·) List.takeWhile_append_dropWhile.symm
  have digits : ∀ c ∈ first :: text.takeWhile Char.isDigit, c.isDigit = true :=
    List.forall_mem_cons.2 ⟨digit, fun _ => List.mem_takeWhile_imp⟩
  dsimp only
  by_cases dice : startsDice (text.dropWhile Char.isDigit) = true
  · rw [if_pos dice]
    obtain ⟨d, split_at, letter⟩ := startsDice_eq_true dice
    split
    · trivial
    · next number counted =>
      have counted := (countUpTo?_eq_some_iff digits).1 counted
      refine Grounded.behind _ whole (Grounded.behind [d] split_at ?_)
      exact (readDice_grounded (Or.inr counted) letter _).conclude id (fun _ => ⟨_, rfl⟩)
        fun _ _ derived => derived
  · rw [if_neg dice]
    split
    · next n counted =>
      exact ⟨_, whole, .number ((countUpTo?_eq_some_iff digits).1 counted)⟩
    · trivial

theorem readVariable_grounded (text : List Char) :
    Grounded (fun w t => IsPrimary ('@' :: w) t) text (readVariable text) := by
  unfold readVariable
  have whole : text = text.takeWhile isPathChar ++ text.dropWhile isPathChar :=
    List.takeWhile_append_dropWhile.symm
  by_cases unwritten : (text.takeWhile isPathChar).isEmpty = true
  · rw [if_pos unwritten]
    rw [List.isEmpty_iff.1 unwritten] at whole
    exact ⟨[], whole, ['x'], _, .path (List.cons_ne_nil _ _) (by simp [isPathChar])⟩
  · rw [if_neg unwritten]
    rw [List.isEmpty_iff] at unwritten
    exact ⟨_, whole, .path unwritten fun _ => List.mem_takeWhile_imp⟩

theorem expect_grounded (c : Char) (text : List Char) :
    Grounded (fun w _ => ∃ b, Blanks b ∧ w = b ++ [c]) text (expect c text) := by
  obtain ⟨b, blanks, whole⟩ := exists_blanks text
  unfold expect
  split
  · next ended =>
    rw [ended] at whole
    exact ⟨b, whole, [c], (), b, blanks, rfl⟩
  · next d rest found =>
    rw [found] at whole
    by_cases same : d = c
    · rw [if_pos same]
      subst same
      exact ⟨b ++ [d], by rw [List.append_assoc]; exact whole, b, blanks, rfl⟩
    · rw [if_neg same]
      exact ⟨b, whole, [c], (), b, blanks, rfl⟩

theorem readFunctionName_grounded (first : Char) (text : List Char) :
    Grounded (fun w function => ∃ name b, name.map Char.toLower = function.name.toList ∧
      Blanks b ∧ w = name ++ (b ++ ['('])) (first :: text) (readFunctionName first text) := by
  unfold readFunctionName
  dsimp only
  split
  · trivial
  · next function named =>
    have named := congrArg String.toList (MathFunction.ofName?_eq_some_iff.1 named)
    rw [String.toList_ofList] at named
    refine Grounded.behind (first :: text.takeWhile Char.isAlpha)
      (congrArg (first :: ·) List.takeWhile_append_dropWhile.symm) ?_
    refine (expect_grounded '(' _).conclude (fun _ => function) (fun _ => ⟨_, rfl⟩) ?_
    rintro w - ⟨b, blanks, rfl⟩
    exact ⟨_, b, named, blanks, rfl⟩

theorem ne_minus_of_isBlank {c : Char} (h : isBlank c = true) : c ≠ '-' := by
  rintro rfl
  exact absurd h (by decide)

theorem readSigns_taken (negative : Bool) (text : List Char) :
    ∃ signs, Signs signs ∧ text = signs ++ (readSigns negative text).2 ∧
      (readSigns negative text).1 = (negative ^^ decide (Negates signs)) := by
  induction text generalizing negative with
  | nil => exact ⟨[], List.forall_mem_nil _, rfl, (Bool.xor_false _).symm⟩
  | cons c text ih =>
    rw [readSigns]
    split
    · next skipped =>
      rw [Bool.or_eq_true, decide_eq_true_eq] at skipped
      obtain ⟨signs, signed, whole, parity⟩ := ih negative
      have other : c ≠ '-' := by
        rcases skipped with blank | rfl
        · exact ne_minus_of_isBlank blank
        · decide
      refine ⟨c :: signs, List.forall_mem_cons.2 ⟨?_, signed⟩, congrArg (c :: ·) whole, ?_⟩
      · exact skipped.imp_right Or.inl
      · rw [parity, decide_eq_decide.2 (negates_cons_of_ne other)]
    · split
      · next minus =>
        subst minus
        obtain ⟨signs, signed, whole, parity⟩ := ih (!negative)
        refine ⟨'-' :: signs, List.forall_mem_cons.2 ⟨Or.inr (Or.inr rfl), signed⟩,
          congrArg ('-' :: ·) whole, ?_⟩
        rw [parity, decide_eq_decide.2 negates_minus_cons, decide_not, Bool.not_xor, Bool.xor_not]
      · exact ⟨[], List.forall_mem_nil _, rfl, (Bool.xor_false _).symm⟩

theorem isOperand_of_signs {signs w : List Char} {t : Term} (signed : Signs signs)
    (primary : IsPrimary w t) :
    IsOperand (signs ++ w) (if Negates signs then negated t else t) := by
  by_cases odd : Negates signs
  · rw [if_pos odd]
    unfold negated
    split
    · exact .constant signed odd primary
    · next other => exact .subtracted signed odd primary other
  · rw [if_neg odd]
    exact .plain signed odd primary

/-! ## Formulas -/

/-- A text of a rule with blanks behind it. -/
def Padded (G : List Char → α → Prop) (w : List Char) (value : α) : Prop :=
  ∃ u b, w = u ++ b ∧ G u value ∧ Blanks b

theorem Padded.intro {G : List Char → α → Prop} {w : List Char} {value : α} (h : G w value) :
    Padded G w value := ⟨w, [], (List.append_nil _).symm, h, List.forall_mem_nil _⟩

theorem readMore_of_stop {text : List Char}
    (stop : ∀ c rest, skipBlank text = c :: rest → Operator.ofSymbol? c = none) :
    ∃ shorter, readMore text = .ok ⟨[], skipBlank text, shorter⟩ := by
  refine ⟨Nat.lt_succ_of_le (Text.length_skipBlank_le text), ?_⟩
  rw [readMore]
  split
  · next ended => simp only [ended]
  · next c rest found =>
    dsimp only
    rw [stop c rest found]
    simp only [found]

theorem readMore_of_operator {text rest : List Char} {op : Operator}
    (found : skipBlank text = op.symbol :: rest) :
    ∃ shorter : ∀ (operand : Scanned Term rest.length)
        (more : Scanned Formula (operand.rest.length + 1)), more.rest.length < text.length + 1,
      readMore text = do
        let operand ← readOperand rest
        let more ← readMore operand.rest
        return ⟨.operator op :: operand.value :: more.value, more.rest, shorter operand more⟩ := by
  refine ⟨fun operand more => ?_, ?_⟩
  · have blanks := Text.length_skipBlank_le text
    rw [found, List.length_cons] at blanks
    have := operand.shorter
    have := more.shorter
    omega
  · rw [readMore]
    split
    · next ended => exact absurd (ended.symm.trans found) (List.cons_ne_nil _ _).symm
    · next c rest' found' =>
      obtain ⟨rfl, rfl⟩ := List.cons.inj (found'.symm.trans found)
      dsimp only
      rw [Operator.ofSymbol?_eq_some_iff.2 rfl]

theorem readFormula_grounded {text : List Char}
    (operand : Grounded IsOperand text (readOperand text))
    (more : ∀ first : Scanned Term text.length,
      Grounded (Padded IsMore) first.rest (readMore first.rest)) :
    Grounded (Padded IsFormula) text (readFormula text) := by
  rw [readFormula]
  refine operand.bind (fun s w first => ?_) fun w t first => ?_
  · refine (more s).conclude (s.value :: ·) (fun _ => ⟨_, rfl⟩) ?_
    rintro _ ts ⟨u, b, rfl, rest, blanks⟩
    exact ⟨w ++ u, b, (List.append_assoc _ _ _).symm, .intro first rest, blanks⟩
  · exact ⟨[], [t], .intro (.intro first .nil)⟩

theorem readMore_grounded_of_stop {text : List Char}
    (stop : ∀ c rest, skipBlank text = c :: rest → Operator.ofSymbol? c = none) :
    Grounded (Padded IsMore) text (readMore text) := by
  obtain ⟨shorter, eq⟩ := readMore_of_stop stop
  obtain ⟨b, blanks, whole⟩ := exists_blanks text
  rw [eq]
  exact ⟨b, whole, [], b, rfl, .nil, blanks⟩

theorem readMore_grounded_of_operator {text rest : List Char} {op : Operator}
    (found : skipBlank text = op.symbol :: rest)
    (operand : Grounded IsOperand rest (readOperand rest))
    (more : ∀ s : Scanned Term rest.length, Grounded (Padded IsMore) s.rest (readMore s.rest)) :
    Grounded (Padded IsMore) text (readMore text) := by
  obtain ⟨shorter, eq⟩ := readMore_of_operator found
  obtain ⟨b, blanks, whole⟩ := exists_blanks text
  rw [found] at whole
  rw [eq]
  refine Grounded.behind b whole (Grounded.behind [op.symbol] rfl ?_)
  refine operand.bind (fun s w first => ?_) fun w t first => ?_
  · refine (more s).conclude (.operator op :: s.value :: ·) (fun _ => ⟨_, rfl⟩) ?_
    rintro _ ts ⟨u, b', rfl, rest, blanks'⟩
    refine ⟨b ++ op.symbol :: (w ++ u), b', ?_, .cons blanks first rest, blanks'⟩
    simp only [List.append_assoc, List.cons_append, List.nil_append]
  · have derived : IsMore (b ++ op.symbol :: (w ++ [])) [.operator op, t] :=
      .cons blanks first .nil
    exact ⟨[], _, Padded.intro derived⟩

theorem readOperand_grounded {text : List Char}
    (primary : Grounded IsPrimary (readSigns false text).2 (readPrimary (readSigns false text).2)) :
    Grounded IsOperand text (readOperand text) := by
  obtain ⟨signs, signed, whole, parity⟩ := readSigns_taken false text
  rw [readOperand]
  refine Grounded.behind signs whole (primary.conclude
    (fun t => if (readSigns false text).1 then negated t else t) (fun _ => ⟨_, rfl⟩) ?_)
  intro w t primary
  simp only [parity, Bool.false_xor, decide_eq_true_eq]
  exact isOperand_of_signs signed primary

theorem startsDice_of_ne {c : Char} (h : c ≠ 'd') (h' : c ≠ 'D') (text : List Char) :
    ¬startsDice (c :: text) = true := by
  intro dice
  obtain ⟨d, eq, letter⟩ := startsDice_eq_true dice
  obtain rfl := (List.cons.inj eq).1
  exact letter.elim h h'

theorem readPrimary_group (text : List Char) : readPrimary ('(' :: text) = do
    let inner ← readFormula text
    let close ← expect ')' inner.rest
    return ⟨.group inner.value, close.rest,
      Nat.lt_succ_of_lt (Nat.lt_trans close.shorter inner.shorter)⟩ := by
  rw [readPrimary, if_neg (by decide), if_neg (startsDice_of_ne (by decide) (by decide) _),
    if_neg (by decide), if_pos rfl]

theorem ne_of_isAlpha {c d : Char} (h : c.isAlpha = true) (h' : d.isAlpha = false) : c ≠ d := by
  rintro rfl
  rw [h] at h'
  cases h'

theorem not_isDigit_of_isAlpha {c : Char} (h : c.isAlpha = true) : ¬c.isDigit = true := by
  grind [Char.isAlpha, Char.isUpper, Char.isLower, Char.isDigit]

theorem readPrimary_call {c : Char} (letter : c.isAlpha = true) (text : List Char)
    (other : ¬startsDice (c :: text) = true) : readPrimary (c :: text) = do
    let function ← readFunctionName c text
    let argument ← readFormula function.rest
    let close ← expect ')' argument.rest
    return ⟨.call function.value argument.value, close.rest,
      Nat.lt_trans close.shorter (Nat.lt_trans argument.shorter function.shorter)⟩ := by
  rw [readPrimary, if_neg (not_isDigit_of_isAlpha letter), if_neg other,
    if_neg (ne_of_isAlpha letter (by decide)), if_neg (ne_of_isAlpha letter (by decide)),
    if_pos letter]

theorem isFormula_zero : IsFormula ['0'] [.number 0] := by
  have operand : IsOperand ([] ++ ['0']) (.number 0) :=
    .plain (List.forall_mem_nil _) (by decide) (.number (numeral_zero _))
  exact .intro operand .nil

/-- A formula up to the parenthesis that closes it. -/
theorem closed_grounded {lead text : List Char} {wrap : Formula → Term}
    (inner : Grounded (Padded IsFormula) text (readFormula text))
    (derive : ∀ u b f, IsFormula u f → Blanks b → IsPrimary (lead ++ (u ++ (b ++ [')']))) (wrap f))
    (shorter : ∀ (inner : Scanned Formula text.length) (close : Scanned Unit inner.rest.length),
      close.rest.length < n) :
    Grounded (fun w t => IsPrimary (lead ++ w) t) text (do
      let inner ← readFormula text
      let close ← expect ')' inner.rest
      return ⟨wrap inner.value, close.rest, shorter inner close⟩) := by
  have closes {w b : List Char} {f : Formula} (padded : Padded IsFormula w f) (blanks : Blanks b) :
      IsPrimary (lead ++ (w ++ (b ++ [')']))) (wrap f) := by
    obtain ⟨u, b', rfl, inner, blanks'⟩ := padded
    have derived := derive u (b' ++ b) f inner (List.forall_mem_append.2 ⟨blanks', blanks⟩)
    simpa only [List.append_assoc] using derived
  refine inner.bind (fun s w padded => ?_) fun w f padded => ?_
  · refine (expect_grounded ')' s.rest).conclude (fun _ => wrap s.value) (fun _ => ⟨_, rfl⟩) ?_
    rintro _ - ⟨b, blanks, rfl⟩
    exact closes padded blanks
  · exact ⟨[')'], wrap f, closes padded (b := []) (List.forall_mem_nil _)⟩

theorem readPrimary_grounded_of_group {text : List Char}
    (inner : Grounded (Padded IsFormula) text (readFormula text)) :
    Grounded IsPrimary ('(' :: text) (readPrimary ('(' :: text)) := by
  rw [readPrimary_group]
  exact Grounded.behind ['('] rfl (closed_grounded inner (fun _ _ _ => .group) _)

theorem readPrimary_grounded_of_call {c : Char} (letter : c.isAlpha = true) {text : List Char}
    (other : ¬startsDice (c :: text) = true)
    (argument : ∀ function : Scanned MathFunction (text.length + 1),
      Grounded (Padded IsFormula) function.rest (readFormula function.rest)) :
    Grounded IsPrimary (c :: text) (readPrimary (c :: text)) := by
  rw [readPrimary_call letter text other]
  refine (readFunctionName_grounded c text).bind ?_ ?_
  · rintro function _ ⟨name, b, named, blanks, rfl⟩
    refine closed_grounded (argument function) (fun u b' f inner blanks' => ?_) _
    simpa only [List.append_assoc, List.singleton_append] using
      IsPrimary.call named blanks inner blanks'
  · rintro _ function ⟨name, b, named, blanks, rfl⟩
    refine ⟨['0', ')'], .call function [.number 0], ?_⟩
    have derived : IsPrimary (name ++ (b ++ '(' :: (['0'] ++ ([] ++ [')'])))) _ :=
      .call named blanks isFormula_zero (List.forall_mem_nil _)
    rw [List.append_assoc, List.append_assoc]
    exact derived

theorem reading_grounded :
    (∀ text, Grounded (Padded IsFormula) text (readFormula text)) ∧
    (∀ text, Grounded (Padded IsMore) text (readMore text)) ∧
    (∀ text, Grounded IsOperand text (readOperand text)) ∧
    ∀ text, Grounded IsPrimary text (readPrimary text) := by
  -- along the calls of the readers, which all go to shorter texts or to a reader of a lower rank
  refine readFormula.mutual_induct _ _ _ _ ?formula ?ended ?other ?operator ?operand ?nothing
    ?number ?dice ?path ?group ?call ?unexpected
  case formula => exact fun _ => readFormula_grounded
  case ended =>
    intro text ended
    refine readMore_grounded_of_stop fun c rest found => ?_
    exact absurd (ended.symm.trans found) (List.cons_ne_nil _ _).symm
  case other =>
    intro text d rest found _ none
    refine readMore_grounded_of_stop fun c rest' found' => ?_
    obtain ⟨rfl, rfl⟩ := List.cons.inj (found.symm.trans found')
    exact none
  case operator =>
    intro text d rest found _ op symbol operand more
    obtain rfl := Operator.ofSymbol?_eq_some_iff.1 symbol
    exact readMore_grounded_of_operator found operand more
  case operand => exact fun _ => readOperand_grounded
  case nothing =>
    rw [readPrimary]
    exact ⟨[], rfl, ['0'], _, .number (numeral_zero _)⟩
  case number =>
    intro c text digit
    rw [readPrimary, if_pos digit]
    exact readNumber_grounded digit text
  case dice =>
    intro c text other dice
    obtain ⟨d, eq, letter⟩ := startsDice_eq_true dice
    obtain rfl := (List.cons.inj eq).1
    rw [readPrimary, if_neg other, if_pos dice]
    exact Grounded.behind [c] rfl (readDice_grounded (Or.inl ⟨rfl, rfl⟩) letter text)
  case path =>
    intro text digit dice
    rw [readPrimary, if_neg digit, if_neg dice, if_pos rfl]
    exact Grounded.behind ['@'] rfl (readVariable_grounded text)
  case group => exact fun _ _ _ _ => readPrimary_grounded_of_group
  case call => exact fun _ _ _ other _ _ letter => readPrimary_grounded_of_call letter other
  case unexpected =>
    intro c text digit dice at_sign paren letter
    rw [readPrimary, if_neg digit, if_neg dice, if_neg at_sign, if_neg paren, if_neg letter]
    exact ⟨[], rfl, ['0'], _, .number (numeral_zero _)⟩

end Tabletop.Formula
