import Mathlib
import Tabletop.Proofs.Formula.Recognition
/-!
# Which texts are formulas

A text is read as a formula if and only if the grammar derives it, and then as what it denotes. If
reading stops, the characters before that place begin a text of the grammar.
-/

namespace Tabletop.Formula

open Text (isBlank skipBlank Scanned)
open Grammar

theorem skipBlank_eq_nil_iff {text : List Char} : skipBlank text = [] ↔ Blanks text := by
  rw [Text.skipBlank_eq_dropWhile, List.dropWhile_eq_nil_iff]
  rfl

theorem readSigns_skipBlank (negative : Bool) (text : List Char) :
    readSigns negative (skipBlank text) = readSigns negative text := by
  induction text with
  | nil => rfl
  | cons c text ih =>
    rw [skipBlank]
    by_cases blank : isBlank c = true
    · rw [if_pos blank, ih, readSigns, blank, Bool.true_or, if_pos rfl]
    · rw [if_neg blank]

theorem readFormula_reads_skipBlank {text rest : List Char} {f : Formula}
    (h : Reads (readFormula text) f rest) : Reads (readFormula (skipBlank text)) f rest := by
  rw [readFormula] at h ⊢
  obtain ⟨first, operand, h⟩ := h.of_bind
  obtain ⟨more, operators, shorter, eq⟩ := h.of_bind
  cases eq
  rw [readOperand_reads_iff, ← readSigns_skipBlank, ← readOperand_reads_iff] at operand
  exact operand.bind fun _ => operators.bind fun _ => ⟨_, rfl⟩

theorem stops_of_blanks {b : List Char} (blanks : Blanks b) : Stops b := by
  refine ⟨fun c head => ?_, fun c head => ?_⟩
  · rw [isEnd, blanks c (List.mem_of_mem_head? head), Bool.true_or, Bool.true_or]
  · rw [skipBlank_eq_nil_iff.2 blanks] at head
    cases head

theorem readAll_of_isText {text : List Char} {f : Formula} (h : IsText text f) :
    readAll text = .ok f := by
  obtain ⟨b, w, b', rfl, blanks, formula, blanks'⟩ := h
  have read := readFormula_reads_skipBlank (readFormula_reads formula (stops_of_blanks blanks'))
  rw [← skipBlank_append blanks, skipBlank_eq_nil_iff.2 blanks'] at read
  unfold readAll
  split
  · next ended =>
    rw [ended] at read
    obtain ⟨shorter, -⟩ := read
    exact absurd shorter (Nat.not_lt_zero _)
  · next c body found =>
    rw [found] at read
    obtain ⟨shorter, eq⟩ := read
    rw [eq]
    rfl

theorem isText_append {w b : List Char} {f : Formula} (h : IsText w f) (blanks : Blanks b) :
    IsText (w ++ b) f := by
  obtain ⟨b₁, u, b₂, rfl, blanks₁, formula, blanks₂⟩ := h
  refine ⟨b₁, u, b₂ ++ b, ?_, blanks₁, formula, List.forall_mem_append.2 ⟨blanks₂, blanks⟩⟩
  simp only [List.append_assoc]

/-- What is read up to the next visible character is a text of the grammar. -/
theorem isText_of_reads {text rest : List Char} {f : Formula}
    (h : Reads (readFormula (skipBlank text)) f rest) :
    ∃ taken, text = taken ++ skipBlank rest ∧ IsText taken f := by
  obtain ⟨b, blanks, whole⟩ := exists_blanks text
  obtain ⟨b', blanks', whole'⟩ := exists_blanks rest
  have grounded := reading_grounded.1 (skipBlank text)
  obtain ⟨shorter, eq⟩ := h
  rw [eq] at grounded
  obtain ⟨_, taken, u, b'', rfl, formula, blanks''⟩ := grounded
  have derived : IsText (b ++ (u ++ b'')) f := ⟨b, u, b'', rfl, blanks, formula, blanks''⟩
  refine ⟨b ++ (u ++ b'') ++ b', ?_, isText_append derived blanks'⟩
  rw [List.append_assoc, ← whole', whole, taken]
  simp only [List.append_assoc]

/-- A text at which reading stops begins one of the grammar. -/
theorem begins_of_stop {text rest : List Char}
    (h : readFormula (skipBlank text) = .error (.unexpected rest)) :
    ∃ taken, text = taken ++ rest ∧ Begins taken := by
  obtain ⟨b, blanks, whole⟩ := exists_blanks text
  have grounded := reading_grounded.1 (skipBlank text)
  rw [h] at grounded
  obtain ⟨taken, split_at, more, f, u, b', eq, formula, blanks'⟩ := grounded
  refine ⟨b ++ taken, ?_, more, f, b, u, b', ?_, blanks, formula, blanks'⟩
  · rw [List.append_assoc, ← split_at]
    exact whole
  · rw [List.append_assoc, eq]

theorem readAll_cases (text : List Char) :
    Blanks text ∧ readAll text = .error .empty ∨
    (∃ stop, readFormula (skipBlank text) = .error stop ∧
      readAll text = .error (stop.toError text.length)) ∨
    ∃ f rest, Reads (readFormula (skipBlank text)) f rest ∧
      (skipBlank rest = [] ∧ readAll text = .ok f ∨
        ∃ c tail, skipBlank rest = c :: tail ∧
          readAll text = .error (Stop.toError text.length (.unexpected (c :: tail)))) := by
  unfold readAll
  split
  · next ended => exact Or.inl ⟨skipBlank_eq_nil_iff.1 ended, rfl⟩
  · next c body found =>
    rw [found]
    cases read : readFormula (c :: body) with
    | error stop => exact Or.inr (Or.inl ⟨stop, rfl, rfl⟩)
    | ok s =>
      refine Or.inr (Or.inr ⟨s.value, s.rest, ⟨s.shorter, rfl⟩, ?_⟩)
      dsimp only
      split
      · next ended => exact Or.inl ⟨ended, rfl⟩
      · next d tail found' => exact Or.inr ⟨d, tail, found', rfl⟩

theorem isText_of_readAll {text : List Char} {f : Formula} (h : readAll text = .ok f) :
    IsText text f := by
  rcases readAll_cases text with
    ⟨-, eq⟩ | ⟨stop, -, eq⟩ | ⟨f', rest, reads, ⟨ended, eq⟩ | ⟨_, _, -, eq⟩⟩
  · cases h.symm.trans eq
  · cases h.symm.trans eq
  · cases h.symm.trans eq
    obtain ⟨taken, whole, derived⟩ := isText_of_reads reads
    rw [ended, List.append_nil] at whole
    rwa [whole]
  · cases h.symm.trans eq

/-- Reading fails where the text can no longer be continued to one of the grammar, or where it is
one and more stands behind it. -/
theorem readAll_error_cases {text : List Char} {e : FormulaError} (h : readAll text = .error e) :
    Blanks text ∧ e = .empty ∨ ∃ stop, e = Stop.toError text.length stop ∧
      ∀ rest, stop = .unexpected rest → ∃ taken, text = taken ++ rest ∧ Begins taken := by
  rcases readAll_cases text with
    ⟨blanks, eq⟩ | ⟨stop, read, eq⟩ | ⟨f, rest, reads, ⟨-, eq⟩ | ⟨c, tail, found, eq⟩⟩
  · cases h.symm.trans eq
    exact Or.inl ⟨blanks, rfl⟩
  · cases h.symm.trans eq
    refine Or.inr ⟨stop, rfl, ?_⟩
    rintro rest rfl
    exact begins_of_stop read
  · cases h.symm.trans eq
  · cases h.symm.trans eq
    refine Or.inr ⟨.unexpected (c :: tail), rfl, ?_⟩
    rintro _ ⟨⟩
    obtain ⟨taken, whole, derived⟩ := isText_of_reads reads
    rw [found] at whole
    exact ⟨taken, whole, [], f, by rwa [List.append_nil]⟩

/-! ## Errors -/

theorem toError_ne_empty (size : Nat) (stop : Stop) : stop.toError size ≠ .empty := by
  intro h
  unfold Stop.toError at h
  split at h <;> cases h

theorem toError_ne_divisionByZero (size : Nat) (stop : Stop) :
    stop.toError size ≠ .divisionByZero := by
  intro h
  unfold Stop.toError at h
  split at h <;> cases h

theorem toError_eq_unexpectedEnd {size : Nat} {stop : Stop}
    (h : stop.toError size = .unexpectedEnd) : stop = .unexpected [] := by
  unfold Stop.toError at h
  split at h <;> first | rfl | cases h

theorem toError_eq_unexpectedChar {size position : Nat} {stop : Stop} {found : Char}
    (h : stop.toError size = .unexpectedChar position found) :
    ∃ rest, stop = .unexpected (found :: rest) ∧ position = size - (rest.length + 1) := by
  unfold Stop.toError at h
  split at h
  · cases h
  · next c rest =>
    cases h
    exact ⟨rest, rfl, rfl⟩
  · cases h
  · cases h

/-- The position of an unexpected character is that of the character in the whole text. -/
theorem getElem?_of_toError {text : List Char} {stop : Stop} {position : Nat} {found : Char}
    (h : stop.toError text.length = .unexpectedChar position found)
    (whole : ∀ rest, stop = .unexpected rest → ∃ taken, text = taken ++ rest ∧ Begins taken) :
    text[position]? = some found ∧ Begins (text.take position) := by
  obtain ⟨rest, rfl, rfl⟩ := toError_eq_unexpectedChar h
  obtain ⟨taken, rfl, begins⟩ := whole _ rfl
  have position : (taken ++ found :: rest).length - (rest.length + 1) = taken.length := by
    rw [List.length_append, List.length_cons]
    omega
  rw [position, List.getElem?_append_right (Nat.le_refl _), Nat.sub_self,
    List.take_left' rfl]
  exact ⟨rfl, begins⟩

/-- A string is read as a formula if and only if the grammar derives it, and as the formula that it
denotes. Reading finds it empty if and only if it is blank. It comes to an unexpected end only when
nothing is left, and an unexpected character is the one at the given position; in both cases what
stands before that place begins a text of the grammar. -/
theorem parse_iff_isText (s : String) :
    (∀ f, parse s = .ok f ↔ IsText s.toList f) ∧
    (parse s = .error .empty ↔ Blanks s.toList) ∧
    (parse s = .error .unexpectedEnd →
      readFormula (skipBlank s.toList) = .error (.unexpected []) ∧ Begins s.toList) ∧
    ∀ position found, parse s = .error (.unexpectedChar position found) →
      s.toList[position]? = some found ∧ Begins (s.toList.take position) := by
  refine ⟨fun f => ⟨isText_of_readAll, readAll_of_isText⟩, ⟨fun h => ?_, fun blanks => ?_⟩,
    fun h => ?_, fun position found h => ?_⟩
  · rcases readAll_error_cases h with ⟨blanks, -⟩ | ⟨stop, eq, -⟩
    · exact blanks
    · exact absurd eq.symm (toError_ne_empty _ _)
  · have ended := skipBlank_eq_nil_iff.2 blanks
    unfold parse readAll
    simp only [ended]
  · rcases readAll_cases s.toList with
      ⟨-, eq⟩ | ⟨stop, read, eq⟩ | ⟨f, rest, -, ⟨-, eq⟩ | ⟨c, tail, -, eq⟩⟩
    · cases h.symm.trans eq
    · obtain rfl := toError_eq_unexpectedEnd (Except.error.inj (eq.symm.trans h))
      obtain ⟨taken, whole, begins⟩ := begins_of_stop read
      rw [List.append_nil] at whole
      rw [whole] at read ⊢
      exact ⟨read, begins⟩
    · cases h.symm.trans eq
    · cases h.symm.trans eq
  · rcases readAll_error_cases h with ⟨-, eq⟩ | ⟨stop, eq, whole⟩
    · cases eq
    · exact getElem?_of_toError eq.symm whole

/-- A text that ends behind an operator, and one that goes on with what is no operator. -/
theorem unfinished_and_misplaced :
    parse "1d6 +" = .error .unexpectedEnd ∧ Begins "1d6 +".toList ∧
    parse "1d6 $ 2" = .error (.unexpectedChar 4 '$') ∧ "1d6 $ 2".toList[4]? = some '$' ∧
    Begins ("1d6 $ 2".toList.take 4) := by
  have unfinished : parse "1d6 +" = .error .unexpectedEnd := by cbv
  have misplaced : parse "1d6 $ 2" = .error (.unexpectedChar 4 '$') := by cbv
  obtain ⟨-, -, ended, -⟩ := parse_iff_isText "1d6 +"
  obtain ⟨-, -, -, found⟩ := parse_iff_isText "1d6 $ 2"
  obtain ⟨character, begins⟩ := found 4 '$' misplaced
  exact ⟨unfinished, (ended unfinished).2, misplaced, character, begins⟩

end Tabletop.Formula
